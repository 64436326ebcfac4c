import RedshiftOdbc.Connect.IniWriter
import RedshiftOdbc.Library.Machine

/-!
# The INI file as a store

Where the writer finds a proper place for the line of a key, the reader finds that line and
no other key changes; along a run of such writes every key reads as the last value that was
written to it.
-/

namespace RedshiftOdbc.Connect.Ini

open RedshiftOdbc.CText

/-! ## The lines that are written -/

/-- The texts are free of line breaks and NULs. -/
def Writing.Plain (writing : Writing) : Prop :=
  ∀ text ∈ writing.pSectionName :: writing.pKey :: writing.pData.toList,
    (0 : UInt8) ∉ text ∧ (10 : UInt8) ∉ text

instance (writing : Writing) : Decidable writing.Plain := by
  unfold Writing.Plain
  infer_instance

structure Writing.WellNamed (writing : Writing) : Prop where
  section_fits : writing.pSectionName.length + 2 < iniKeySize - 1
  key_fits : writing.pKey.length < iniKeySize

/-- A line that fits, with a key that the reader finds as it is written. -/
structure Writing.Shown (writing : Writing) (data : List UInt8) : Prop where
  line_fits : writing.pKey.length + data.length + 2 < iniBufferSize
  trimmed : trim writing.pKey = writing.pKey
  no_equals : (61 : UInt8) ∉ writing.pKey
  no_comment : writing.pKey.head? ≠ some 59
  no_bracket : writing.pKey.head? ≠ some 91

section

variable {writing : Writing}

theorem Writing.sectionText_eq (plain : writing.Plain) (named : writing.WellNamed) :
    writing.sectionText = 91 :: (writing.pSectionName ++ [93]) := by
  have noZero := (plain writing.pSectionName (by simp)).1
  have fits := named.section_fits
  rw [Writing.sectionText, sectionSearch, Option.getD_some, cString_of_not_mem noZero,
    List.take_of_length_le]
  rw [List.length_cons, List.length_append, List.length_singleton]
  omega

theorem Writing.keyText_eq (plain : writing.Plain) (named : writing.WellNamed) :
    writing.keyText = writing.pKey := by
  have noZero := (plain writing.pKey (by simp)).1
  rw [Writing.keyText, keySearch, cString_of_not_mem noZero, if_pos named.key_fits]

theorem Writing.sectionLine_eq (plain : writing.Plain) (named : writing.WellNamed) :
    sectionLine writing.pSectionName = 91 :: (writing.pSectionName ++ [93]) ++ [10] := by
  have noZero := (plain writing.pSectionName (by simp)).1
  have fits := named.section_fits
  rw [sectionLine, cString_of_not_mem noZero, List.take_of_length_le]
  · simp
  · rw [List.length_cons, List.length_append]
    simp only [iniKeySize, iniBufferSize, List.length_cons, List.length_nil] at *
    omega

theorem Writing.keyLine_eq (plain : writing.Plain) {data : List UInt8}
    (shown : writing.Shown data) (given : data ∈ writing.pData) :
    keyLine writing.pKey data = writing.pKey ++ 61 :: data ++ [10] := by
  have noZero := (plain writing.pKey (by simp)).1
  have noZero' := (plain data (by simp [Option.mem_def.mp given])).1
  have fits := shown.line_fits
  rw [keyLine, cString_of_not_mem noZero, cString_of_not_mem noZero', List.take_of_length_le]
  · simp
  · rw [List.length_append, List.length_cons, List.length_append, List.length_singleton]
    omega

theorem head_of_trimmed {text : List UInt8} (trimmed : trim text = text) :
    ∀ byte ∈ text.head?, isSpace byte = false := by
  cases text with
  | nil => exact fun _ none => absurd none (by simp)
  | cons first rest =>
      rintro byte ⟨⟩
      cases space : isSpace first with
      | false => rfl
      | true =>
          have shorter := congrArg List.length trimmed
          have suffix := (List.rdropWhile_prefix isSpace
            ((first :: rest).dropWhile isSpace)).length_le
          have later : (rest.dropWhile isSpace).length ≤ rest.length :=
            (List.dropWhile_sublist isSpace).length_le
          rw [trim] at shorter
          rw [List.dropWhile_cons_of_pos space] at shorter suffix
          rw [List.length_cons] at shorter
          omega

/-- What the reader makes of the line of the key. -/
theorem Writing.keyLine_read (plain : writing.Plain) {data : List UInt8}
    (shown : writing.Shown data) (given : data ∈ writing.pData) :
    opensSection (keyLine writing.pKey data) = false ∧
      isCommentLine (chomp (keyLine writing.pKey data)) = false ∧
      ∀ search, valueOf search (keyLine writing.pKey data) =
        if sameText search writing.pKey then some data else none := by
  have noEquals := shown.no_equals
  have text : chomp (keyLine writing.pKey data) = writing.pKey ++ 61 :: data := by
    rw [Writing.keyLine_eq plain shown given, chomp_concat]
  have start : (writing.pKey ++ 61 :: data).dropWhile (· = 32) = writing.pKey ++ 61 :: data := by
    cases shape : writing.pKey with
    | nil => rfl
    | cons first rest =>
        have space := head_of_trimmed shown.trimmed first (by rw [shape]; rfl)
        rw [isSpace, Bool.or_eq_false_iff] at space
        rw [List.cons_append,
          List.dropWhile_cons_of_neg (by rw [space.1]; exact Bool.false_ne_true)]
  refine ⟨?_, ?_, fun search => ?_⟩
  · rw [← opensSection_chomp, text, opensSection, start, decide_eq_false_iff_not]
    have bracket := shown.no_bracket
    cases shape : writing.pKey with
    | nil => simp
    | cons first rest => rwa [shape] at bracket
  · rw [text, isCommentLine, start]
    have comment := shown.no_comment
    cases shape : writing.pKey with
    | nil => rfl
    | cons first rest =>
        rw [shape] at comment
        simpa using comment
  · have front : ∀ byte ∈ writing.pKey, decide (byte ≠ 61) = true := by
      intro byte member
      rw [decide_eq_true_eq]
      rintro rfl
      exact noEquals member
    have parts : splitKey (writing.pKey ++ 61 :: data) = some (writing.pKey, data) := by
      rw [splitKey, if_pos (by simp), List.takeWhile_append_of_pos front,
        List.dropWhile_append_of_pos front]
      simp
    rw [valueOf, text, parts, Option.bind_some, shown.trimmed]

end

/-! ## Where the line is put -/

/-- A file whose last line ends too. -/
def EndsLine (file : List UInt8) : Prop := file = [] ∨ file.getLast? = some 10

instance (file : List UInt8) : Decidable (EndsLine file) := by
  unfold EndsLine
  infer_instance

namespace Writing

variable (writing : Writing)

/-- A section that the line can be put into. -/
structure Placed (file : List UInt8) (body : List Line) : Prop where
  /-- No line in front has the key with blanks around it. -/
  front : ∀ line ∈ copiedFront writing.pKey body, endsSearch writing.pKey line = false
  closed : ∀ line ∈ (copiedRest writing.pKey body).head?, opensSection line = true → 93 ∈ line
  /-- A line that is added behind the last one does not continue it. -/
  last : writing.pData ≠ none → copiedRest writing.pKey body = [] → EndsLine file
  /-- Behind a header that is the last line, `original` has been empty. -/
  memory : body = [] → cString writing.stale = []
  /-- A key that is removed has no blanks around it and is not there a second time. -/
  once : writing.pData = none →
    ∀ line ∈ (copiedRest writing.pKey body).head?, opensSection line = false →
      trim writing.pKey = writing.pKey ∧
      ¬LeavesLine writing.pKey (copiedRest writing.pKey body).tail ∧
        keyValue writing.pKey (copiedRest writing.pKey body).tail = none

/--
The names fit, and with a value the key is one that the reader finds as it is written.  The
file has no NUL.  Without the section it ends with a line break.  In the section no line in
front of the place has the key between blanks, a bracket that ends it is closed, and where
nothing ends it and a value is added the file ends with a line break.  Behind a header that
is the last line the memory of `original` has been empty, and a key that is removed has no
blanks around it and is not there a second time.
-/
structure Writable (file : List UInt8) : Prop extends writing.WellNamed where
  shown : ∀ data ∈ writing.pData, writing.Shown data
  noNul : (0 : UInt8) ∉ file
  absent : sectionBody writing.sectionText (readLines file) = none → EndsLine file
  placed : ∀ body ∈ sectionBody writing.sectionText (readLines file), writing.Placed file body

/-- The lines of the file around the place, and those of the new file. -/
structure Split (file : List UInt8) (before : List Line) (header : Line)
    (front old rest : List Line) : Prop where
  read : readLines file = before ++ header :: (front ++ (old ++ rest))
  written : writing.newLines file = some (before ++ header :: (front ++ (writing.added ++ rest)))
  heads : isHeader writing.sectionText header = true
  first : ∀ line ∈ before, isHeader writing.sectionText line = false
  passed : ∀ line ∈ front, stopsCopy writing.pKey line = false
  missed : ∀ line ∈ front, endsSearch writing.pKey line = false
  found : ∀ line ∈ old, opensSection line = false ∧ sameText writing.pKey (rawKey line) = true
  trimmed : old ≠ [] → trim writing.pKey = writing.pKey
  last : old ++ rest = [] → writing.added = [] ∨ EndsLine file
  once : writing.pData = none → findKey writing.pKey rest = some none

variable {writing}

theorem newLines_absent {file : List UInt8} (full : [] ∉ readLines file)
    (absent : sectionBody writing.sectionText (readLines file) = none) :
    writing.newLines file =
      some (readLines file ++ (sectionLine writing.pSectionName :: writing.added)) := by
  rw [newLines, copySection_absent full absent]

theorem split_of_present {file : List UInt8} {body : List Line} (full : [] ∉ readLines file)
    (key : writing.keyText = writing.pKey) (shown : ∀ data ∈ writing.pData, writing.Shown data)
    (present : sectionBody writing.sectionText (readLines file) = some body)
    (placed : writing.Placed file body) :
    ∃ before header front old rest, writing.Split file before header front old rest := by
  obtain ⟨before, header, read, heads, first, copies⟩ := copySection_present full present
  have whole := copiedFront_append writing.pKey body
  have passed : ∀ line ∈ copiedFront writing.pKey body, stopsCopy writing.pKey line = false := by
    intro line member
    simpa using List.mem_takeWhile_imp member
  have written (front rest : List Line) (original : Line)
      (body_copies : copyBody writing.stale writing.keyText body = some (front, original, rest)) :
      writing.newLines file = some (before ++ header :: (front ++
        (writing.added ++ ((if original = [] then [] else [original]) ++ rest)))) := by
    rw [newLines, copies]
    dsimp only
    rw [body_copies]
    simp
  have copied : copyBody writing.stale writing.keyText body = copyKeys writing.pKey body := by
    rw [copyBody, key]
    split_ifs with empty
    · rw [empty, placed.memory empty]
      rfl
    · rfl
  have keys := copyKeys_eq writing.pKey body
  cases stop : copiedRest writing.pKey body with
  | nil =>
      rw [stop, List.append_nil] at whole
      rw [stop] at keys
      have news := written _ _ _ (copied.trans keys)
      refine ⟨before, header, copiedFront writing.pKey body, [], [], ?_, news, heads, first, passed,
        placed.front, nofun, nofun, fun _ => ?_, fun _ => rfl⟩
      · rw [whole, read, List.append_nil, List.append_nil]
      · cases given : writing.pData with
        | none => exact Or.inl (by rw [added, given]; rfl)
        | some data => exact Or.inr (placed.last (by rw [given]; exact Option.some_ne_none _) stop)
  | cons line rest =>
      rw [stop] at keys whole
      dsimp only at keys
      have closed := placed.closed line (by rw [stop]; rfl)
      have once := fun removed => placed.once removed line (by rw [stop]; rfl)
      rw [stop, List.tail_cons] at once
      have stops : stopsCopy writing.pKey line = true := by
        have head := List.head?_dropWhile_not (fun line => !stopsCopy writing.pKey line) body
        rw [copiedRest] at stop
        rw [stop] at head
        simpa using head
      have member : line ∈ readLines file := by
        rw [read, ← whole]
        simp
      have some_line : line ≠ [] := fun empty => full (empty ▸ member)
      cases opens : opensSection line with
      | true =>
          rw [if_pos opens, if_pos (closed opens)] at keys
          have news := written _ _ _ (copied.trans keys)
          rw [if_neg some_line] at news
          refine ⟨before, header, copiedFront writing.pKey body, [], line :: rest, ?_, news, heads,
            first, passed, placed.front, nofun, nofun,
            fun empty => absurd empty (List.cons_ne_nil _ _), fun _ => ?_⟩
          · rw [List.nil_append, whole, read]
          · exact findKey_bracket ((isBracket_eq line).trans opens)
              ((mem_chomp (by decide) line).mpr (closed opens))
      | false =>
          rw [opens, if_neg Bool.false_ne_true] at keys
          have news := written _ _ _ (copied.trans keys)
          refine ⟨before, header, copiedFront writing.pKey body, [line], rest, ?_, news, heads,
            first, passed, placed.front, ?_, fun _ => ?_,
            fun empty => absurd empty (List.cons_ne_nil _ _), fun removed => ?_⟩
          · rw [List.singleton_append, whole, read]
          · intro other same
            rw [List.mem_singleton.mp same]
            rw [stopsCopy, opens, Bool.false_or, Bool.and_eq_true] at stops
            exact ⟨opens, stops.2⟩
          · cases given : writing.pData with
            | none => exact (once given opens).1
            | some data => exact (shown data given).trimmed
          · obtain ⟨-, stays, missing⟩ := once removed opens
            rw [findKey_eq, if_neg stays, missing]

/-! ## Reading behind a write -/

theorem seek_sameText {search search' key key' : List UInt8}
    (sections : sameText search search' = true) (keys : sameText key key' = true)
    (lines : List Line) : seek search key lines = seek search' key' lines := by
  have found (lines : List Line) : findKey key lines = findKey key' lines := by
    induction lines with
    | nil => rfl
    | cons line rest ih => simp only [findKey, ih, sameText_congr keys]
  have behind (lines : List Line) : findSection search lines = findSection search' lines := by
    induction lines with
    | nil => rfl
    | cons line rest ih => simp only [findSection, ih, sameText_congr sections]
  rw [seek, seek, behind, funext found]

theorem mem_added {line : Line} (member : line ∈ writing.added) :
    ∃ data ∈ writing.pData, keyLine writing.pKey data = line := by
  rw [added, Option.mem_toList, Option.map_eq_some_iff] at member
  exact member

theorem proper_concat {text : List UInt8} (noBreak : (10 : UInt8) ∉ text)
    (fits : text.length + 1 < iniBufferSize) :
    (text ++ [10] ≠ [] ∧ (text ++ [10]).length ≤ iniBufferSize - 1 ∧
      10 ∉ (text ++ [10]).dropLast) ∧ (text ++ [10]).getLast? = some 10 := by
  refine ⟨⟨by simp, ?_, ?_⟩, List.getLast?_concat⟩
  · rw [List.length_append, List.length_singleton]
    omega
  · rwa [List.dropLast_concat]

section

variable {file : List UInt8} {before : List Line} {header : Line} {front old rest : List Line}
  (plain : writing.Plain) (named : writing.WellNamed)
  (shown : ∀ data ∈ writing.pData, writing.Shown data)

include plain

include shown in
theorem added_full : [] ∉ writing.added := by
  intro member
  obtain ⟨data, given, empty⟩ := mem_added member
  rw [keyLine_eq plain (shown data given) given] at empty
  exact absurd empty (by simp)

include shown in
theorem added_opens : ∀ line ∈ writing.added, opensSection line = false := by
  intro line member
  obtain ⟨data, given, rfl⟩ := mem_added member
  exact (keyLine_read plain (shown data given) given).1

include shown in
theorem added_passes {key : List UInt8} (differs : sameText key writing.pKey = false) :
    ∀ line ∈ writing.added, endsSearch key line = false := by
  intro line member
  obtain ⟨data, given, rfl⟩ := mem_added member
  obtain ⟨inside, -, value⟩ := keyLine_read plain (shown data given) given
  rw [endsSearch, isBracket_eq, inside, value, differs]
  simp

include shown in
/-- The line that was added is the first one with the key. -/
theorem findKey_added (none_left : writing.pData = none → findKey writing.pKey rest = some none) :
    findKey writing.pKey (writing.added ++ rest) = some writing.pData := by
  cases given : writing.pData with
  | none =>
      rw [added, given]
      exact none_left given
  | some data =>
      obtain ⟨inside, entry, value⟩ := keyLine_read plain (shown data given) given
      have same : sameText writing.pKey writing.pKey = true := sameText_iff.mpr rfl
      rw [added, given]
      refine findKey_value ((isBracket_eq _).trans inside) entry ?_
      rw [value, same, if_pos rfl]

include named in
theorem closed_of_header {line : Line} (heads : isHeader writing.sectionText line = true) :
    isBracket line = true ∧ 93 ∈ chomp line := by
  refine ⟨(isBracket_eq line).trans (opens_of_header heads), ?_⟩
  rw [isHeader, sectionText_eq plain named, Bool.and_eq_true, sameText_iff] at heads
  have member : toLower 93 ∈ (chomp line).map toLower := by
    rw [← heads.2]
    simp
  obtain ⟨byte, inside, lower⟩ := List.mem_map.mp member
  have closing : byte = 93 :=
    (toLower_eq_iff (Or.inr ⟨by decide, by decide⟩)).mp (lower.trans rfl)
  rwa [closing] at inside

include shown in
theorem seek_written (split : writing.Split file before header front old rest)
    (full : [] ∉ readLines file) :
    seek writing.sectionText writing.pKey
        (before ++ header :: (front ++ (writing.added ++ rest))) =
      some writing.pData := by
  rw [split.read] at full
  simp only [List.mem_append, List.mem_cons, not_or] at full
  rw [seek_front full.1 split.first, seek_cons (Ne.symm full.2.1), split.heads, if_pos rfl,
    findKey_front full.2.2.1 split.missed, findKey_added plain shown split.once]

include named shown in
theorem seek_other (split : writing.Split file before header front old rest)
    (full : [] ∉ readLines file) {pSectionName : Option (List UInt8)} {key : List UInt8}
    (differs : ¬(sameText (sectionSearch pSectionName) writing.sectionText = true ∧
      sameText key writing.pKey = true)) :
    seek (sectionSearch pSectionName) key
        (before ++ header :: (front ++ (writing.added ++ rest))) =
      seek (sectionSearch pSectionName) key (readLines file) := by
  rw [split.read] at full ⊢
  simp only [List.mem_append, List.mem_cons, not_or] at full
  obtain ⟨-, header_full, front_full, old_full, -⟩ := full
  have added_heads : ∀ line ∈ writing.added, isHeader (sectionSearch pSectionName) line = false :=
    fun line member => no_header_of_closed (added_opens plain shown line member)
  have old_heads : ∀ line ∈ old, isHeader (sectionSearch pSectionName) line = false :=
    fun line member => no_header_of_closed (split.found line member).1
  cases sections : sameText (sectionSearch pSectionName) writing.sectionText with
  | true =>
      have keys : sameText key writing.pKey = false :=
        Bool.eq_false_iff.mpr fun same => differs ⟨sections, same⟩
      have old_passes : ∀ line ∈ old, endsSearch key line = false := fun line member =>
        endsSearch_of_rawKey (split.trimmed (List.ne_nil_of_mem member)) (split.found line member).1
          (split.found line member).2 keys
      have grouped (middle : List Line) : before ++ header :: (front ++ (middle ++ rest)) =
          (before ++ header :: front) ++ (middle ++ rest) := by simp
      rw [grouped, grouped, seek_skips (added_full plain shown) added_heads
        (added_passes plain shown keys), seek_skips old_full old_heads old_passes]
  | false =>
      have noHeader : isHeader (sectionSearch pSectionName) header = false := by
        have heads := split.heads
        rw [isHeader, Bool.and_eq_true] at heads
        rw [isHeader, sameText_comm, ← sameText_congr heads.2, sameText_comm, sections,
          Bool.and_false]
      obtain ⟨bracket, closed⟩ := closed_of_header plain named split.heads
      have front_heads : ∀ line ∈ front, isHeader (sectionSearch pSectionName) line = false :=
        fun line member => no_header_of_passed (split.passed line member)
      have behind (middle : List Line) (middle_full : [] ∉ middle)
          (heads : ∀ line ∈ middle, isHeader (sectionSearch pSectionName) line = false) :
          seek (sectionSearch pSectionName) key
              (before ++ header :: (front ++ (middle ++ rest))) =
            seek (sectionSearch pSectionName) key (before ++ header :: rest) := by
        rw [← List.append_assoc front]
        refine seek_behind bracket closed (Ne.symm header_full) noHeader ?_ ?_
        · rw [List.mem_append, not_or]
          exact ⟨front_full, middle_full⟩
        · intro line member
          rcases List.mem_append.mp member with member | member
          · exact front_heads line member
          · exact heads line member
      rw [behind _ (added_full plain shown) added_heads, behind _ old_full old_heads]

include named shown in
/-- A new section behind all lines. -/
theorem seek_written_absent (full : [] ∉ readLines file)
    (absent : sectionBody writing.sectionText (readLines file) = none) :
    seek writing.sectionText writing.pKey
        (readLines file ++ (sectionLine writing.pSectionName :: writing.added)) =
      some writing.pData := by
  have line := sectionLine_eq plain named
  have heads : isHeader writing.sectionText (sectionLine writing.pSectionName) = true := by
    rw [isHeader, line, chomp_concat, sectionText_eq plain named, Bool.and_eq_true]
    exact ⟨rfl, sameText_iff.mpr rfl⟩
  have key := findKey_added plain shown fun _ => @rfl _ (findKey writing.pKey [])
  rw [List.append_nil] at key
  rw [seek_front full (no_header_of_absent absent),
    seek_cons (by rw [line]; exact List.cons_ne_nil _ _), heads, if_pos rfl, key]

include named shown in
theorem seek_other_absent (full : [] ∉ readLines file)
    (absent : sectionBody writing.sectionText (readLines file) = none)
    {pSectionName : Option (List UInt8)} {key : List UInt8}
    (differs : ¬(sameText (sectionSearch pSectionName) writing.sectionText = true ∧
      sameText key writing.pKey = true)) :
    seek (sectionSearch pSectionName) key
        (readLines file ++ (sectionLine writing.pSectionName :: writing.added)) =
      seek (sectionSearch pSectionName) key (readLines file) := by
  have line := sectionLine_eq plain named
  have some_line : sectionLine writing.pSectionName ≠ [] := by rw [line]; exact List.cons_ne_nil _ _
  have heads : isHeader writing.sectionText (sectionLine writing.pSectionName) = true := by
    rw [isHeader, line, chomp_concat, sectionText_eq plain named, Bool.and_eq_true]
    exact ⟨rfl, sameText_iff.mpr rfl⟩
  have added_heads : ∀ line ∈ writing.added, isHeader (sectionSearch pSectionName) line = false :=
    fun line member => no_header_of_closed (added_opens plain shown line member)
  cases sections : sameText (sectionSearch pSectionName) writing.sectionText with
  | true =>
      have keys : sameText key writing.pKey = false :=
        Bool.eq_false_iff.mpr fun same => differs ⟨sections, same⟩
      have same : sameText key key = true := sameText_iff.mpr rfl
      have nothing : findKey key writing.added = some none := by
        have front := @findKey_front key writing.added [] (added_full plain shown)
          (added_passes plain shown keys)
        rwa [List.append_nil] at front
      have noHeaders := no_header_of_absent absent
      have before := @seek_front writing.sectionText key (readLines file) [] full noHeaders
      rw [List.append_nil] at before
      rw [seek_sameText sections same, seek_sameText sections same, before,
        seek_front full noHeaders, seek_cons some_line, heads, if_pos rfl, nothing]
      rfl
  | false =>
      have noHeader : isHeader (sectionSearch pSectionName)
          (sectionLine writing.pSectionName) = false := by
        rw [isHeader, Bool.and_eq_true] at heads
        rw [isHeader, sameText_comm, ← sameText_congr heads.2, sameText_comm, sections,
          Bool.and_false]
      obtain ⟨bracket, closed⟩ := closed_of_header plain named heads
      have behind := @seek_behind (sectionSearch pSectionName) key _ (readLines file) []
        writing.added bracket closed some_line noHeader (added_full plain shown) added_heads
      rw [List.append_nil] at behind
      rw [behind, seek_last bracket closed some_line noHeader]

/-! ## The lines of the new file -/

include shown in
theorem added_proper : ∀ line ∈ writing.added,
    ((line ≠ [] ∧ line.length ≤ iniBufferSize - 1 ∧ 10 ∉ line.dropLast) ∧
      line.getLast? = some 10) ∧ (0 : UInt8) ∉ line := by
  intro line member
  obtain ⟨data, given, rfl⟩ := mem_added member
  obtain ⟨noZero, noBreak⟩ := plain writing.pKey (by simp)
  obtain ⟨noZero', noBreak'⟩ := plain data (by simp [Option.mem_def.mp given])
  have fits := (shown data given).line_fits
  rw [keyLine_eq plain (shown data given) given]
  refine ⟨proper_concat ?_ ?_, ?_⟩
  · simp [noBreak, noBreak']
  · rw [List.length_append, List.length_cons]
    omega
  · simp [noZero, noZero']

include named in
theorem sectionLine_proper :
    ((sectionLine writing.pSectionName ≠ [] ∧
        (sectionLine writing.pSectionName).length ≤ iniBufferSize - 1 ∧
        10 ∉ (sectionLine writing.pSectionName).dropLast) ∧
      (sectionLine writing.pSectionName).getLast? = some 10) ∧
        (0 : UInt8) ∉ sectionLine writing.pSectionName := by
  obtain ⟨noZero, noBreak⟩ := plain writing.pSectionName (by simp)
  have fits := named.section_fits
  rw [sectionLine_eq plain named]
  refine ⟨proper_concat ?_ ?_, ?_⟩
  · simp [noBreak]
  · simp only [iniKeySize, iniBufferSize, List.length_cons, List.length_append,
      List.length_nil] at *
    omega
  · simp [noZero]

end

theorem readLines_eq {file : List UInt8} (noNul : (0 : UInt8) ∉ file) :
    readLines file = lines iniBufferSize file := by
  have whole := @lines_flatten iniBufferSize (by decide) file
  have kept : ∀ line ∈ lines iniBufferSize file, cString line = line := by
    intro line member
    refine cString_of_not_mem fun zero => noNul ?_
    rw [← whole]
    exact List.mem_flatten_of_mem member zero
  rw [readLines, List.map_congr_left kept, List.map_id']

theorem readLines_flatten {ls : List Line} (lined : Lined iniBufferSize ls)
    (noNul : ∀ line ∈ ls, (0 : UInt8) ∉ line) : readLines ls.flatten = ls := by
  rw [readLines_eq, lines_of_lined lined]
  intro zero
  obtain ⟨line, member, inside⟩ := List.mem_flatten.mp zero
  exact noNul line member inside

/-- The lines of the new file, and that they are read as they were written. -/
theorem written_lines {file : List UInt8} (plain : writing.Plain) (writable : writing.Writable file)
    (lined : Lined iniBufferSize (lines iniBufferSize file)) :
    ∃ news, writing.newLines file = some news ∧
      (readLines news.flatten = news ∧ Lined iniBufferSize news) ∧
      seek writing.sectionText writing.pKey news = some writing.pData ∧
      ∀ pSectionName key, ¬(sameText (sectionSearch pSectionName) writing.sectionText = true ∧
          sameText key writing.pKey = true) →
        seek (sectionSearch pSectionName) key news =
          seek (sectionSearch pSectionName) key (readLines file) := by
  have named := writable.toWellNamed
  have shown := writable.shown
  have whole := @lines_flatten iniBufferSize (by decide) file
  rw [← readLines_eq writable.noNul] at lined whole
  have full : [] ∉ readLines file := fun member => (lined.proper [] member).1 rfl
  have noNul : ∀ line ∈ readLines file, (0 : UInt8) ∉ line := fun line member zero =>
    writable.noNul (whole ▸ List.mem_flatten_of_mem member zero)
  have ended (ends : EndsLine file) : ∀ line ∈ readLines file, line.getLast? = some 10 := by
    refine lined.ends_all ?_
    rwa [whole]
  have added_lined := fun line member => (added_proper plain shown line member).1
  have added_noNul := fun line member => (added_proper plain shown line member).2
  have sound (front rest : List Line)
      (proper : ∀ line ∈ front, line ≠ [] ∧ line.length ≤ iniBufferSize - 1 ∧ 10 ∉ line.dropLast)
      (ends : ∀ line ∈ front, line.getLast? = some 10) (behind : Lined iniBufferSize rest)
      (front_noNul : ∀ line ∈ front, (0 : UInt8) ∉ line)
      (rest_noNul : ∀ line ∈ rest, (0 : UInt8) ∉ line) :
      readLines (front ++ (writing.added ++ rest)).flatten = front ++ (writing.added ++ rest) ∧
        Lined iniBufferSize (front ++ (writing.added ++ rest)) := by
    have all : Lined iniBufferSize (front ++ (writing.added ++ rest)) :=
      Lined.append proper ends (Lined.append (fun line member => (added_lined line member).1)
        (fun line member => (added_lined line member).2) behind)
    refine ⟨readLines_flatten all fun line member => ?_, all⟩
    rcases List.mem_append.mp member with member | member
    · exact front_noNul line member
    · rcases List.mem_append.mp member with member | member
      · exact added_noNul line member
      · exact rest_noNul line member
  cases present : sectionBody writing.sectionText (readLines file) with
  | none =>
      obtain ⟨⟨line_proper, line_ends⟩, line_noNul⟩ := sectionLine_proper plain named
      have news := newLines_absent full present
      refine ⟨_, news, ?_, seek_written_absent plain named shown full present,
        fun _ _ differs => seek_other_absent plain named shown full present differs⟩
      have grouped : readLines file ++ (sectionLine writing.pSectionName :: writing.added) =
          (readLines file ++ [sectionLine writing.pSectionName]) ++ (writing.added ++ []) := by simp
      rw [grouped]
      refine sound _ [] ?_ ?_ ⟨nofun, nofun⟩ ?_ nofun
      · intro line member
        rcases List.mem_append.mp member with member | member
        · exact lined.proper line member
        · rwa [List.mem_singleton.mp member]
      · intro line member
        rcases List.mem_append.mp member with member | member
        · exact ended (writable.absent present) line member
        · rwa [List.mem_singleton.mp member]
      · intro line member
        rcases List.mem_append.mp member with member | member
        · exact noNul line member
        · rwa [List.mem_singleton.mp member]
  | some body =>
      obtain ⟨before, header, front, old, rest, split⟩ :=
        split_of_present full (keyText_eq plain named) shown present (writable.placed body present)
      refine ⟨_, split.written, ?_, seek_written plain shown split full,
        fun _ _ differs => seek_other plain named shown split full differs⟩
      have read : readLines file = (before ++ header :: front) ++ (old ++ rest) := by
        rw [split.read]
        simp
      have grouped : before ++ header :: (front ++ (writing.added ++ rest)) =
          (before ++ header :: front) ++ (writing.added ++ rest) := by simp
      rw [grouped]
      by_cases same : old ++ rest = [] ∧ writing.added = []
      · -- Nothing is removed and nothing added.
        have kept : (before ++ header :: front) ++ (writing.added ++ rest) = readLines file := by
          rw [read, same.1, same.2, (List.append_eq_nil_iff.mp same.1).2, List.append_nil]
        rw [kept]
        exact ⟨readLines_flatten lined noNul, lined⟩
      have front_ends : ∀ line ∈ before ++ header :: front, line.getLast? = some 10 := by
        by_cases nothing : old ++ rest = []
        · have ends := (split.last nothing).resolve_left fun none_added => same ⟨nothing, none_added⟩
          rw [nothing, List.append_nil] at read
          rw [← read]
          exact ended ends
        · rw [read] at lined
          exact lined.ends_front nothing
      rw [read] at lined noNul
      refine sound _ rest (fun line member => lined.proper line ?_) front_ends
        lined.of_append.of_append (fun line member => noNul line ?_)
        (fun line member => noNul line ?_)
      · exact List.mem_append_left _ member
      · exact List.mem_append_left _ member
      · exact List.mem_append_right _ (List.mem_append_right _ member)

end Writing

/-! ## Every write -/

/-- The request is for the section and the key that are written. -/
def Request.Names (request : Request) (writing : Writing) : Prop :=
  sameText (cString (request.pSectionName.getD [40, 110, 117, 108, 108, 41]))
      writing.pSectionName = true ∧
    ∃ pKey ∈ request.pKey, sameText (cString pKey) writing.pKey = true

/--
The text that is read is the value without the blanks around it, or the default when the key
was removed, wherever that fits.
-/
def Request.Reads (request : Request) (newFile pReturn : List UInt8) (writing : Writing) : Prop :=
  1 ≤ pReturn.length →
    (∀ data ∈ writing.pData, (trim data).length < pReturn.length) →
    (writing.pData = none → DefaultFits request pReturn.length) →
      ∃ result, getPrivateProfileStringWithFullPath request (some newFile) pReturn =
          some result ∧
        cString result.1 = (writing.pData.map trim).getD request.pDflt.kept

theorem sameText_sectionSearch {writing : Writing} (plain : writing.Plain)
    (named : writing.WellNamed) (pSectionName : Option (List UInt8)) :
    sameText (sectionSearch pSectionName) writing.sectionText =
      sameText (cString (pSectionName.getD [40, 110, 117, 108, 108, 41]))
        writing.pSectionName := by
  have fits := named.section_fits
  rw [Writing.sectionText_eq plain named, sectionSearch]
  generalize cString (pSectionName.getD [40, 110, 117, 108, 108, 41]) = name
  by_cases short : name.length + 2 ≤ iniKeySize - 1
  · rw [List.take_of_length_le (by
      rw [List.length_cons, List.length_append, List.length_singleton]; omega), Bool.eq_iff_iff,
      sameText_iff, sameText_iff, List.map_cons, List.map_cons, List.map_append, List.map_append]
    simp
  · have cut : sameText ((91 :: (name ++ [93])).take (iniKeySize - 1))
        (91 :: (writing.pSectionName ++ [93])) = false := by
      refine Bool.eq_false_iff.mpr fun same => ?_
      have lengths := length_of_sameText same
      simp only [List.length_take, List.length_cons, List.length_append,
        List.length_nil] at lengths
      omega
    have long : sameText name writing.pSectionName = false :=
      Bool.eq_false_iff.mpr fun same => by
        have lengths := length_of_sameText same
        omega
    rw [cut, long]

theorem sameText_keySearch {writing : Writing} (named : writing.WellNamed)
    (behind pKey : List UInt8) :
    sameText (keySearch behind pKey) writing.pKey = sameText (cString pKey) writing.pKey := by
  have fits := named.key_fits
  rw [keySearch]
  split_ifs with short
  · rfl
  · have cut :
        sameText ((cString pKey).take iniKeySize ++ cString behind) writing.pKey = false := by
      refine Bool.eq_false_iff.mpr fun same => ?_
      have lengths := length_of_sameText same
      simp only [List.length_take, List.length_append] at lengths
      omega
    have long : sameText (cString pKey) writing.pKey = false :=
      Bool.eq_false_iff.mpr fun same => by
        have lengths := length_of_sameText same
        omega
    rw [cut, long]

theorem reads_of_seek {request : Request} {pKey newFile : List UInt8} {writing : Writing}
    (plain : writing.Plain) (asked : request.pKey = some pKey)
    (found : seek (sectionSearch request.pSectionName) (keySearch request.behind pKey)
      (readLines newFile) = some writing.pData) (pReturn : List UInt8) :
    Request.Reads request newFile pReturn writing := by
  intro room value_fits default_fits
  have noNul : ∀ data ∈ writing.pData, cString (trim data) = trim data := by
    intro data given
    refine cString_of_not_mem fun zero => ?_
    have inside : (0 : UInt8) ∈ data :=
      (List.dropWhile_sublist _).subset ((List.rdropWhile_prefix _ _).subset zero)
    exact (plain data (by simp [Option.mem_def.mp given])).1 inside
  obtain ⟨result, done, text⟩ := @answer_text request.pDflt pReturn room writing.pData
    (fun data given => by rw [noNul data given]; exact value_fits data given)
    (fun removed text default => default_fits removed text default)
  refine ⟨result, by rw [read_eq_answer request pKey _ pReturn asked, found, done], ?_⟩
  rw [text]
  cases given : writing.pData with
  | none => rfl
  | some data => exact noNul data given

/-- What a request looks for is what the writing put into the file. -/
theorem names_iff {writing : Writing} (plain : writing.Plain) (named : writing.WellNamed)
    {request : Request} {pKey : List UInt8} (asked : request.pKey = some pKey) :
    Request.Names request writing ↔
      sameText (sectionSearch request.pSectionName) writing.sectionText = true ∧
        sameText (keySearch request.behind pKey) writing.pKey = true := by
  rw [Request.Names, asked, sameText_sectionSearch plain named, sameText_keySearch named]
  simp

/-- A write to a file that is there. -/
def writeStep (file : List UInt8) (writing : Writing) : Option (List UInt8) :=
  writing.writePrivateProfileString (some file)

instance (request : Request) (writing : Writing) : Decidable (Request.Names request writing) := by
  unfold Request.Names
  infer_instance

/-- The last of the writes that has the section and the key. -/
def lastWriting (writings : List Writing) (request : Request) : Option Writing :=
  writings.reverse.find? fun writing => Request.Names request writing

/--
Along any run of such writes the file stays readable line by line, and a key reads as it was
last written, or as in the first file.
-/
theorem runs_readLatest (file : List UInt8) (writings : List Writing)
    (lined : Lined iniBufferSize (lines iniBufferSize file))
    (plain : ∀ writing ∈ writings, writing.Plain)
    (guarded : Machine.AlwaysGuarded writeStep (fun file writing => writing.Writable file)
      file writings) :
    ∃ last, writings.foldlM writeStep file = some last ∧
      Lined iniBufferSize (lines iniBufferSize last) ∧
      ∀ request pKey pReturn, request.pKey = some pKey →
        (∀ writing ∈ lastWriting writings request,
          Request.Reads request last pReturn writing) ∧
        (lastWriting writings request = none →
          getPrivateProfileStringWithFullPath request (some last) pReturn =
            getPrivateProfileStringWithFullPath request (some file) pReturn) := by
  have step : ∀ file writing, Lined iniBufferSize (lines iniBufferSize file) →
      writing.Plain ∧ writing.Writable file →
        ∃ next, writeStep file writing = some next ∧
          Lined iniBufferSize (lines iniBufferSize next) ∧
          ∀ query : {request : Request // request.pKey.isSome = true},
            seek (sectionSearch query.1.pSectionName)
                (keySearch query.1.behind (query.1.pKey.get query.2)) (readLines next) =
              (if Request.Names query.1 writing then some (some writing.pData) else none).getD
                (seek (sectionSearch query.1.pSectionName)
                  (keySearch query.1.behind (query.1.pKey.get query.2)) (readLines file)) := by
    rintro file writing lined ⟨plain, writable⟩
    have named := writable.toWellNamed
    obtain ⟨news, written, ⟨read, sound⟩, found, others⟩ :=
      Writing.written_lines plain writable lined
    refine ⟨news.flatten, ?_, by rwa [lines_of_lined sound], fun query => ?_⟩
    · rw [writeStep, Writing.writePrivateProfileString, Option.getD_some, written]
      rfl
    · have names := @names_iff writing plain named query.1 _ (Option.some_get query.2).symm
      rw [read]
      split_ifs with named_query
      · obtain ⟨sections, keys⟩ := names.mp named_query
        rw [Writing.seek_sameText sections keys, found]
        rfl
      · exact others _ _ (mt names.mpr named_query)
  obtain ⟨last, run, stays, observed⟩ := Machine.observed_latest step lined
    (Machine.AlwaysGuarded.of_forall plain guarded)
  refine ⟨last, run, stays, fun request pKey pReturn asked => ?_⟩
  have latest : (writings.reverse.findSome? fun writing =>
      if Request.Names request writing then some (some writing.pData) else none) =
        (lastWriting writings request).map fun writing => some writing.pData := by
    rw [lastWriting]
    induction writings.reverse with
    | nil => rfl
    | cons writing rest ih =>
        rw [List.findSome?_cons, List.find?_cons, ih]
        by_cases names : Request.Names request writing
        · simp [names]
        · simp [names]
  have found := observed ⟨request, by rw [asked]; rfl⟩
  simp only [asked, Option.get_some] at found
  rw [latest] at found
  constructor
  · intro writing here
    rw [here] at found
    have member := List.mem_reverse.mp (List.mem_of_find?_eq_some here)
    exact reads_of_seek (plain writing member) asked found pReturn
  · intro missing
    rw [missing] at found
    rw [read_eq_answer request pKey _ pReturn asked, read_eq_answer request pKey _ pReturn asked,
      found]
    rfl

/-- A key that is written to a new section and then a second time. -/
theorem runs_readLatest_twice :
    ∃ last, ([⟨bytes "s", bytes "k", some (bytes "1"), [], []⟩,
        ⟨bytes "S", bytes "K", some (bytes " 2"), [], []⟩] : List Writing).foldlM writeStep [] =
          some last ∧
      Lined iniBufferSize (lines iniBufferSize last) ∧
      Request.Reads (keyRequest "s" "k") last (List.replicate 4 1)
        ⟨bytes "S", bytes "K", some (bytes " 2"), [], []⟩ := by
  have first : writeStep [] ⟨bytes "s", bytes "k", some (bytes "1"), [], []⟩ =
      some (bytes "[s]\nk=1\n") := by decide
  have second : writeStep (bytes "[s]\nk=1\n") ⟨bytes "S", bytes "K", some (bytes " 2"), [], []⟩ =
      some (bytes "[s]\nK= 2\n") := by decide
  obtain ⟨last, run, stays, reads⟩ := runs_readLatest []
    [⟨bytes "s", bytes "k", some (bytes "1"), [], []⟩,
      ⟨bytes "S", bytes "K", some (bytes " 2"), [], []⟩]
    ⟨nofun, nofun⟩ (by decide) (by
      refine Machine.AlwaysGuarded.cons ?_ first (Machine.AlwaysGuarded.cons ?_ second trivial)
      · exact { section_fits := by decide
                key_fits := by decide
                shown := by
                  rintro _ ⟨⟩
                  exact ⟨by decide, by decide, by decide, by decide, by decide⟩
                noNul := by decide
                absent := fun _ => Or.inl rfl
                placed := nofun }
      · exact { section_fits := by decide
                key_fits := by decide
                shown := by
                  rintro _ ⟨⟩
                  exact ⟨by decide, by decide, by decide, by decide, by decide⟩
                noNul := by decide
                absent := fun absent => absurd absent (by decide)
                placed := by
                  rintro _ ⟨⟩
                  exact ⟨by decide, by decide, fun _ => by decide, by decide, nofun⟩ })
  exact ⟨last, run, stays, (reads (keyRequest "s" "k") (bytes "k") (List.replicate 4 1) rfl).1 _ rfl⟩

end RedshiftOdbc.Connect.Ini
