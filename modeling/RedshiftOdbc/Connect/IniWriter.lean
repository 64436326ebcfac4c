import RedshiftOdbc.Connect.IniReader

/-!
# Writing the INI file

The writer copies the lines of the file, puts a line of its own in the place of the first
line that has the key as it is given, or else behind the section, and the reader looks for
the first line that has the key between blanks.
-/

namespace RedshiftOdbc.Connect.Ini

open RedshiftOdbc.CText

/-- The part of a line that the writer compares with the key. -/
def rawKey (line : Line) : List UInt8 := (chomp line).takeWhile (· ≠ 61)

/-- The loop that copies up to the header: the lines, and those behind the header. -/
def copySection (search : List UInt8) : List Line → Option (List Line × Option (List Line))
  | [] => some ([], none)
  | line :: rest =>
      if line = [] then none
      else if isHeader search line then some ([line], some rest)
      else (copySection search rest).map fun copied => (line :: copied.1, copied.2)

/--
The loop that copies up to the key or the next section: the lines, the line that is written
behind the new one, and the lines that have not been read.
-/
def copyKeys (search : List UInt8) : List Line → Option (List Line × Line × List Line)
  | [] => some ([], [], [])
  | line :: rest =>
      if isCommentLine line then
        (copyKeys search rest).map fun copied => (line :: copied.1, copied.2)
      else
        match isSection line with
        | none => none
        | some true => some ([], line, rest)
        | some false =>
            if sameText search (rawKey line) then some ([], [], rest)
            else (copyKeys search rest).map fun copied => (line :: copied.1, copied.2)

/-- Without a line behind the header `original` has what its memory had. -/
def copyBody (stale search : List UInt8) (body : List Line) :
    Option (List Line × Line × List Line) :=
  if body = [] then some ([], cString stale, []) else copyKeys search body

def keyLine (pKey pData : List UInt8) : Line :=
  (cString pKey ++ 61 :: (cString pData ++ [10])).take (iniBufferSize - 1)

def sectionLine (pSectionName : List UInt8) : Line :=
  (91 :: (cString pSectionName ++ [93, 10])).take (iniBufferSize - 1)

/-- The arguments of `writePrivateProfileString`, and the memory that it finds. -/
structure Writing where
  pSectionName : List UInt8
  pKey : List UInt8
  /-- Without a value the key is removed. -/
  pData : Option (List UInt8)
  /-- Behind the array that the key is copied to. -/
  behind : List UInt8
  /-- In `original`. -/
  stale : List UInt8
  deriving DecidableEq, Repr

namespace Writing

variable (writing : Writing)

def sectionText : List UInt8 := sectionSearch (some writing.pSectionName)

def keyText : List UInt8 := keySearch writing.behind writing.pKey

/-- The line that is written for the key. -/
def added : List Line := (writing.pData.map (keyLine writing.pKey)).toList

/-- `writePrivateProfileString`: the lines of the new file. -/
def newLines (file : List UInt8) : Option (List Line) :=
  match copySection writing.sectionText (readLines file) with
  | none => none
  | some (copied, none) =>
      some (copied ++ (sectionLine writing.pSectionName :: writing.added))
  | some (copied, some body) =>
      (copyBody writing.stale writing.keyText body).map fun (front, original, rest) =>
        copied ++ (front ++ (writing.added ++ ((if original = [] then [] else [original]) ++ rest)))

def writePrivateProfileString (file : Option (List UInt8)) : Option (List UInt8) :=
  (writing.newLines (file.getD [])).map List.flatten

end Writing

/-! ## Lines that a read passes over -/

section

variable {search key : List UInt8} {line : Line} {front back : List Line}

/-- The search goes past lines that are no end of it. -/
theorem findKey_pass (some_line : line ≠ []) (passes : endsSearch key line = false) :
    findKey key (line :: back) = findKey key back := by
  simp [findKey_eq, LeavesLine, keyValue, lastLine, passes, Ne.symm some_line]

theorem findKey_bracket (bracket : isBracket line = true) (closed : 93 ∈ chomp line) :
    findKey key (line :: back) = some none := by
  simp [findKey_eq, LeavesLine, keyValue, lastLine, endsSearch, bracket, closed]

theorem findKey_value {value : List UInt8} (inside : isBracket line = false)
    (entry : isCommentLine (chomp line) = false) (found : valueOf key line = some value) :
    findKey key (line :: back) = some (some value) := by
  simp [findKey_eq, LeavesLine, keyValue, lastLine, endsSearch, inside, entry, found]

theorem findKey_congr {other : List Line} (same : findKey key back = findKey key other) :
    findKey key (front ++ back) = findKey key (front ++ other) := by
  induction front with
  | nil => exact same
  | cons line front ih => simp only [List.cons_append, findKey, ih]

theorem findKey_front (full : [] ∉ front) (passes : ∀ line ∈ front, endsSearch key line = false) :
    findKey key (front ++ back) = findKey key back := by
  induction front with
  | nil => rfl
  | cons line front ih =>
      rw [List.mem_cons, not_or] at full
      obtain ⟨first, later⟩ := List.forall_mem_cons.mp passes
      rw [List.cons_append, findKey_pass (Ne.symm full.1) first, ih full.2 later]

theorem seek_cons (some_line : line ≠ []) :
    seek search key (line :: back) =
      if isHeader search line then findKey key back else seek search key back := by
  rw [seek, seek, findSection, if_neg some_line, isHeader]
  cases isCommentLine (chomp line) with
  | true => rfl
  | false => cases sameText search (chomp line) <;> rfl

theorem seek_empty : seek search key ([] :: back) = none := rfl

theorem seek_front (full : [] ∉ front) (noHeader : ∀ line ∈ front, isHeader search line = false) :
    seek search key (front ++ back) = seek search key back := by
  induction front with
  | nil => rfl
  | cons line front ih =>
      rw [List.mem_cons, not_or] at full
      obtain ⟨first, later⟩ := List.forall_mem_cons.mp noHeader
      rw [List.cons_append, seek_cons (Ne.symm full.1), first, if_neg Bool.false_ne_true,
        ih full.2 later]

/-- A line that neither loop stops at makes no difference. -/
theorem seek_skip (some_line : line ≠ []) (noHeader : isHeader search line = false)
    (passes : endsSearch key line = false) :
    seek search key (front ++ line :: back) = seek search key (front ++ back) := by
  induction front with
  | nil => rw [List.nil_append, seek_cons some_line, noHeader, if_neg Bool.false_ne_true]; rfl
  | cons first front ih =>
      by_cases empty : first = []
      · rw [empty, List.cons_append, List.cons_append, seek_empty, seek_empty]
      · rw [List.cons_append, List.cons_append, seek_cons empty, seek_cons empty, ih,
          findKey_congr (findKey_pass some_line passes)]

theorem seek_skips {middle : List Line} (full : [] ∉ middle)
    (noHeader : ∀ line ∈ middle, isHeader search line = false)
    (passes : ∀ line ∈ middle, endsSearch key line = false) :
    seek search key (front ++ (middle ++ back)) = seek search key (front ++ back) := by
  induction middle with
  | nil => rfl
  | cons line middle ih =>
      rw [List.mem_cons, not_or] at full
      obtain ⟨head, heads⟩ := List.forall_mem_cons.mp noHeader
      obtain ⟨pass, passed⟩ := List.forall_mem_cons.mp passes
      rw [List.cons_append, seek_skip (Ne.symm full.1) head pass, ih full.2 heads passed]

/-- Nor does what follows the header of another section, up to the next header. -/
theorem seek_behind {middle : List Line} (bracket : isBracket line = true)
    (closed : 93 ∈ chomp line) (some_line : line ≠ []) (noHeader : isHeader search line = false)
    (full : [] ∉ middle) (noHeaders : ∀ line ∈ middle, isHeader search line = false) :
    seek search key (front ++ line :: (middle ++ back)) =
      seek search key (front ++ line :: back) := by
  induction front with
  | nil =>
      rw [List.nil_append, List.nil_append, seek_cons some_line, seek_cons some_line, noHeader,
        if_neg Bool.false_ne_true, if_neg Bool.false_ne_true, seek_front full noHeaders]
  | cons first front ih =>
      by_cases empty : first = []
      · rw [empty, List.cons_append, List.cons_append, seek_empty, seek_empty]
      · have ended : findKey key (line :: (middle ++ back)) = findKey key (line :: back) := by
          rw [findKey_bracket bracket closed, findKey_bracket bracket closed]
        rw [List.cons_append, List.cons_append, seek_cons empty, seek_cons empty, ih,
          findKey_congr ended]

/-- Nor does the header of another section at the end. -/
theorem seek_last (bracket : isBracket line = true) (closed : 93 ∈ chomp line)
    (some_line : line ≠ []) (noHeader : isHeader search line = false) :
    seek search key (front ++ [line]) = seek search key front := by
  induction front with
  | nil => rw [List.nil_append, seek_cons some_line, noHeader, if_neg Bool.false_ne_true]
  | cons first front ih =>
      by_cases empty : first = []
      · rw [empty, List.cons_append, seek_empty, seek_empty]
      · have ended : findKey key [line] = findKey key [] := findKey_bracket bracket closed
        have behind := @findKey_congr key front _ _ ended
        rw [List.append_nil] at behind
        rw [List.cons_append, seek_cons empty, seek_cons empty, ih, behind]

end

/-! ## What the writer copies -/

/-- A line at which the second loop of the writer ends. -/
def stopsCopy (search : List UInt8) (line : Line) : Bool :=
  !isCommentLine line && (opensSection line || sameText search (rawKey line))

/-- The lines of a section that are copied in front of the new one. -/
def copiedFront (search : List UInt8) (body : List Line) : List Line :=
  body.takeWhile fun line => !stopsCopy search line

/-- The line that the loop ends at, and those behind it. -/
def copiedRest (search : List UInt8) (body : List Line) : List Line :=
  body.dropWhile fun line => !stopsCopy search line

theorem copiedFront_append (search : List UInt8) (body : List Line) :
    copiedFront search body ++ copiedRest search body = body := List.takeWhile_append_dropWhile

theorem copyKeys_eq (search : List UInt8) (body : List Line) :
    copyKeys search body =
      match copiedRest search body with
      | [] => some (copiedFront search body, [], [])
      | line :: rest =>
          if opensSection line then
            if 93 ∈ line then some (copiedFront search body, line, rest) else none
          else some (copiedFront search body, [], rest) := by
  induction body with
  | nil => rfl
  | cons line rest ih =>
      have passed (goes : stopsCopy search line = false) :
          copiedFront search (line :: rest) = line :: copiedFront search rest ∧
            copiedRest search (line :: rest) = copiedRest search rest := by
        simp [copiedFront, copiedRest, goes]
      have stopped (stops : stopsCopy search line = true) :
          copiedFront search (line :: rest) = [] ∧
            copiedRest search (line :: rest) = line :: rest := by
        simp [copiedFront, copiedRest, stops]
      have step (goes : stopsCopy search line = false) :
          (copyKeys search rest).map (fun copied => (line :: copied.1, copied.2)) =
            match copiedRest search (line :: rest) with
            | [] => some (copiedFront search (line :: rest), [], [])
            | other :: behind =>
                if opensSection other then
                  if 93 ∈ other then some (copiedFront search (line :: rest), other, behind)
                  else none
                else some (copiedFront search (line :: rest), [], behind) := by
        obtain ⟨front, back⟩ := passed goes
        rw [front, back, ih]
        cases copiedRest search rest with
        | nil => rfl
        | cons other behind =>
            dsimp only
            split_ifs <;> rfl
      rw [copyKeys]
      cases comment : isCommentLine line with
      | true =>
          rw [if_pos rfl]
          exact step (by simp [stopsCopy, comment])
      | false =>
          rw [if_neg Bool.false_ne_true, isSection]
          cases opens : opensSection line with
          | true =>
              obtain ⟨front, back⟩ := stopped (by simp [stopsCopy, comment, opens])
              rw [front, back, if_pos rfl]
              dsimp only
              rw [if_pos opens]
              by_cases closed : 93 ∈ line
              · rw [if_pos closed, if_pos closed]
              · rw [if_neg closed, if_neg closed]
          | false =>
              rw [if_neg Bool.false_ne_true]
              dsimp only
              cases same : sameText search (rawKey line) with
              | true =>
                  obtain ⟨front, back⟩ := stopped (by simp [stopsCopy, comment, same])
                  rw [front, back, if_pos rfl]
                  dsimp only
                  rw [opens, if_neg Bool.false_ne_true]
              | false =>
                  rw [if_neg Bool.false_ne_true]
                  exact step (by simp [stopsCopy, opens, same])

theorem copySection_absent {search : List UInt8} {lines : List Line} (full : [] ∉ lines)
    (absent : sectionBody search lines = none) : copySection search lines = some (lines, none) := by
  induction lines with
  | nil => rfl
  | cons line rest ih =>
      rw [List.mem_cons, not_or] at full
      cases header : isHeader search line with
      | true => simp [sectionBody, header] at absent
      | false =>
          have later : sectionBody search rest = none := by
            simpa [sectionBody, header] using absent
          rw [copySection, if_neg (Ne.symm full.1), header, if_neg Bool.false_ne_true,
            ih full.2 later]
          rfl

theorem no_header_of_absent {search : List UInt8} {lines : List Line}
    (absent : sectionBody search lines = none) : ∀ line ∈ lines, isHeader search line = false := by
  rw [sectionBody] at absent
  cases behind : lines.dropWhile fun line => !isHeader search line with
  | nil =>
      intro line member
      simpa using List.dropWhile_eq_nil_iff.mp behind line member
  | cons line rest =>
      rw [behind] at absent
      cases absent

theorem copySection_present {search : List UInt8} {lines body : List Line} (full : [] ∉ lines)
    (present : sectionBody search lines = some body) :
    ∃ before header, lines = before ++ header :: body ∧ isHeader search header = true ∧
      (∀ line ∈ before, isHeader search line = false) ∧
      copySection search lines = some (before ++ [header], some body) := by
  induction lines with
  | nil => cases present
  | cons line rest ih =>
      rw [List.mem_cons, not_or] at full
      cases header : isHeader search line with
      | true =>
          have found : rest = body := by simpa [sectionBody, header] using present
          refine ⟨[], line, by rw [found]; rfl, header,
            fun _ member => absurd member List.not_mem_nil, ?_⟩
          rw [copySection, if_neg (Ne.symm full.1), header, if_pos rfl, found]
          rfl
      | false =>
          have later : sectionBody search rest = some body := by
            simpa [sectionBody, header] using present
          obtain ⟨before, first, split, heads, plain, copies⟩ := ih full.2 later
          refine ⟨line :: before, first, by rw [split]; rfl, heads,
            List.forall_mem_cons.mpr ⟨header, plain⟩, ?_⟩
          rw [copySection, if_neg (Ne.symm full.1), header, if_neg Bool.false_ne_true, copies]
          rfl

/-! ## Lines with and without their line break -/

theorem opensSection_chomp (line : Line) : opensSection (chomp line) = opensSection line := by
  rcases chomp_eq_or line with same | broken
  · rw [same]
  · conv_rhs => rw [broken]
    rw [opensSection, opensSection, List.dropWhile_append]
    cases blanks : (chomp line).dropWhile (· = 32) with
    | nil => simp
    | cons byte rest => simp

theorem no_comment_of_opens {line : Line} (opens : opensSection line = true) :
    isCommentLine line = false := by
  rw [opensSection] at opens
  rw [isCommentLine]
  cases blanks : line.dropWhile (· = 32) with
  | nil => simp [blanks] at opens
  | cons byte rest =>
      have bracket : byte = 91 := by simpa [blanks] using opens
      simp [bracket]

theorem isBracket_eq (line : Line) : isBracket line = opensSection line := by
  rw [isBracket, opensSection_chomp]
  cases opens : opensSection line with
  | true =>
      rw [no_comment_of_opens ((opensSection_chomp line).trans opens)]
      rfl
  | false => exact Bool.and_false _

theorem mem_chomp {byte : UInt8} (noBreak : byte ≠ 10) (line : Line) :
    byte ∈ chomp line ↔ byte ∈ line := by
  rcases chomp_eq_or line with same | broken
  · rw [same]
  · conv_rhs => rw [broken, List.mem_append, List.mem_singleton]
    simp [noBreak]

theorem sectionSearch_head (pSectionName : Option (List UInt8)) :
    ∃ rest, sectionSearch pSectionName = 91 :: rest := ⟨_, rfl⟩

/-- A header begins with a bracket. -/
theorem opens_of_header {pSectionName : Option (List UInt8)} {line : Line}
    (header : isHeader (sectionSearch pSectionName) line = true) : opensSection line = true := by
  obtain ⟨rest, search⟩ := sectionSearch_head pSectionName
  rw [isHeader, search, Bool.and_eq_true, sameText_comm, sameText_iff, List.map_cons] at header
  obtain ⟨first, text, shape, bracket, -⟩ := List.map_eq_cons_iff.mp header.2
  have first_bracket : first = 91 :=
    (toLower_eq_iff (Or.inr ⟨by decide, by decide⟩)).mp (bracket.trans rfl)
  rw [← opensSection_chomp, opensSection, shape, first_bracket]
  rfl

theorem no_header_of_passed {pSectionName : Option (List UInt8)} {key : List UInt8} {line : Line}
    (passed : stopsCopy key line = false) :
    isHeader (sectionSearch pSectionName) line = false := by
  cases header : isHeader (sectionSearch pSectionName) line with
  | false => rfl
  | true =>
      have opens := opens_of_header header
      simp [stopsCopy, no_comment_of_opens opens, opens] at passed

theorem no_header_of_closed {pSectionName : Option (List UInt8)} {line : Line}
    (opens : opensSection line = false) : isHeader (sectionSearch pSectionName) line = false := by
  cases header : isHeader (sectionSearch pSectionName) line with
  | false => rfl
  | true =>
      rw [opens_of_header header] at opens
      cases opens

/-- A line whose key the writer finds is passed over by the search for another key. -/
theorem endsSearch_of_rawKey {key other : List UInt8} {line : Line} (trimmed : trim key = key)
    (opens : opensSection line = false) (found : sameText key (rawKey line) = true)
    (differs : sameText other key = false) : endsSearch other line = false := by
  have trims := sameText_trim found
  rw [trimmed] at trims
  have missed : sameText other (trim (rawKey line)) = false := by
    rw [sameText_comm, ← sameText_congr trims, sameText_comm, differs]
  have none_value : valueOf other line = none := by
    rw [valueOf, splitKey]
    split_ifs with equals
    · rw [Option.bind_some]
      exact if_neg (Bool.not_eq_true _ ▸ missed)
    · rfl
  rw [endsSearch, isBracket_eq, opens, none_value, Option.isSome_none, Bool.and_false,
    Bool.or_false]

end RedshiftOdbc.Connect.Ini
