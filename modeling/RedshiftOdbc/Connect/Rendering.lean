import RedshiftOdbc.Connect.ConnectionGrammar

/-!
# Connection strings that were rendered

A well formed text gives the map of the last values of its pairs, unless it ends in
blanks behind an empty item or a last value in braces has outer blanks.  A malformed
text gives the empty map, unless it has a lenient reading.  A rendered text gives
back its pairs.
-/

namespace RedshiftOdbc.Connect

open RedshiftOdbc.Scanf RedshiftOdbc.Convert

/-! ## The map of a text -/

theorem lookup_set (name value key : List Char) (res : StringMap) :
    (res.set name value).lookup key =
      if toUpper name = toUpper key then some value else res.lookup key := by
  induction res with
  | nil => simp [StringMap.set, StringMap.lookup]
  | cons entry rest ih =>
      obtain ⟨first, old⟩ := entry
      by_cases same : toUpper first = toUpper name
      · by_cases here : toUpper first = toUpper key
        · have named : toUpper name = toUpper key := same ▸ here
          simp [StringMap.set, StringMap.lookup, same, named]
        · have other : ¬toUpper name = toUpper key := same ▸ here
          simp [StringMap.set, StringMap.lookup, same, other]
      · by_cases here : toUpper first = toUpper key
        · have other : ¬toUpper name = toUpper key := fun named => same (here.trans named.symm)
          rw [StringMap.set, if_neg same, StringMap.lookup, if_pos here, if_neg other,
            StringMap.lookup, if_pos here]
        · simp [StringMap.set, StringMap.lookup, same, here, ih]

theorem lookup_stored (key : List Char) (pairs : List Pair) (kept : ∀ pair ∈ pairs, pair.Kept)
    (res : StringMap) :
    (stored pairs res).lookup key =
      match lastPair key pairs with
      | some last => some (trim last.value)
      | none => res.lookup key := by
  induction pairs generalizing res with
  | nil => rfl
  | cons pair pairs ih =>
      have here := kept pair (by simp)
      have later := ih (fun other member => kept other (by simp [member]))
        (res.set (trim (pair.written.take (pair.written.length % keyLimit))) (trim pair.value))
      rw [stored, List.foldl_cons, ← stored, later, lastPair]
      cases found : lastPair key pairs with
      | some last => rfl
      | none =>
          rw [lookup_set, here]
          by_cases same : toUpper pair.key = toUpper key
          · simp [same]
          · simp [same]

theorem lastPair_mem {key : List Char} {pairs : List Pair} {last : Pair}
    (found : lastPair key pairs = some last) : last ∈ pairs := by
  induction pairs with
  | nil => cases found
  | cons pair pairs ih =>
      rw [lastPair] at found
      split at found
      · cases found
        exact List.mem_cons_of_mem _ (ih ‹_›)
      · split at found
        · cases found
          simp
        · cases found

theorem lastPair_key (pair : Pair) (pairs : List Pair) :
    ∃ last, lastPair pair.key (pair :: pairs) = some last := by
  rw [lastPair]
  cases lastPair pair.key pairs with
  | some last => exact ⟨last, rfl⟩
  | none => exact ⟨pair, by simp⟩

/-- Every last value in braces is without outer blanks. -/
def LastTrimmed (pairs : List Pair) : Prop :=
  ∀ key last, lastPair key pairs = some last → last.braced = true → trim last.value = last.value

theorem stored_complete_iff {pairs : List Pair} (kept : ∀ pair ∈ pairs, pair.Kept) :
    Complete (stored pairs []) pairs ↔ LastTrimmed pairs := by
  constructor
  · intro complete key last found braced
    have sent := complete key
    rw [lookup_stored key pairs kept, found] at sent
    simpa [Pair.given, braced] using sent
  · intro trimmed key
    rw [lookup_stored key pairs kept]
    cases found : lastPair key pairs with
    | none => rfl
    | some last =>
        have outer := trimmed key last found
        cases braced : last.braced with
        | false => simp [Pair.given, braced]
        | true => simp [Pair.given, braced, outer braced]

theorem nil_complete_iff (pairs : List Pair) : Complete [] pairs ↔ pairs = [] := by
  constructor
  · intro complete
    cases pairs with
    | nil => rfl
    | cons pair pairs =>
        obtain ⟨last, found⟩ := lastPair_key pair pairs
        have sent := complete pair.key
        rw [found] at sent
        cases sent
  · rintro rfl key
    rfl

theorem counted_of_kept {pair : Pair} (written : IsWritten pair.written) (kept : pair.Kept) :
    pair.written.length % keyLimit ≠ 0 := by
  intro zero
  have start := startsOff_mono (q := isSpace) (fun _ held => by simp [held]) written.start
  have gone : pair.key = [] := by
    rw [← kept, zero]
    rfl
  exact trim_ne_nil written.nonempty start gone

theorem reads_written {text : List Char} {pairs : List Pair} {dangling : Bool}
    (reads : Reads text pairs dangling) : ∀ pair ∈ pairs, IsWritten pair.written := by
  induction reads with
  | done => simp
  | blanks => simp
  | empty _ _ ih => exact ih
  | pair _ written _ _ _ ih => simpa using ⟨written, ih⟩

/-! ## The cache -/

/-- The result without a cache. -/
def parsed (connStr : List Char) : StringMap := (parseLoop (cString connStr) []).getD []

def Faithful (cache : Cache) : Prop := ∀ connStr res, cache connStr = some res → res = parsed connStr

theorem parseConnectionString_fst {cache : Cache} (faithful : Faithful cache) (connStr : List Char) :
    (parseConnectionString cache connStr).1 = parsed connStr := by
  rw [parseConnectionString]
  split
  · exact faithful connStr _ ‹_›
  · rw [parsed]
    split
    · rename_i failed
      rw [failed]
      rfl
    · rename_i succeeded
      rw [succeeded]
      rfl

theorem parseConnectionString_faithful {cache : Cache} (faithful : Faithful cache)
    (connStr : List Char) : Faithful (parseConnectionString cache connStr).2 := by
  rw [parseConnectionString]
  split
  · exact faithful
  · split
    · exact faithful
    · rename_i res succeeded
      intro other kept found
      dsimp only at found
      by_cases same : other = connStr
      · subst same
        rw [Function.update_self] at found
        cases found
        rw [parsed, succeeded]
        rfl
      · rw [Function.update_of_ne same] at found
        exact faithful other kept found

theorem cacheBehind_faithful (calls : List (List Char)) : Faithful (cacheBehind calls) := by
  induction calls using List.reverseRecOn with
  | nil => intro connStr res found; cases found
  | append_singleton calls connStr ih =>
      rw [cacheBehind, List.foldl_append]
      exact parseConnectionString_faithful ih connStr

/-! ## Rendering -/

/-- The pairs of keys and values that a text is written for. -/
structure IsKey (key : List Char) : Prop where
  nonempty : key ≠ []
  trimmed : trim key = key
  noSign : '=' ∉ key
  noEnd : ';' ∉ key

def renderPair (pair : List Char × List Char) : List Char :=
  pair.1 ++ '=' :: '{' :: double pair.2 ++ ['}']

/-- `k1={v1};k2={v2}`, with a semicolon at the end or without one. -/
def render (ended : Bool) : List (List Char × List Char) → List Char
  | [] => []
  | [pair] => renderPair pair ++ if ended then [';'] else []
  | pair :: next :: rest => renderPair pair ++ ';' :: render ended (next :: rest)

def bracedPair (pair : List Char × List Char) : Pair := ⟨pair.1, pair.2, true⟩

def lastValue (key : List Char) : List (List Char × List Char) → Option (List Char)
  | [] => none
  | pair :: pairs =>
      match lastValue key pairs with
      | some last => some last
      | none => if toUpper pair.1 = toUpper key then some pair.2 else none

theorem IsKey.startsOff {key : List Char} (isKey : IsKey key) :
    StartsOff (fun character => isSpace character || character == ';') key := by
  intro character member
  have blankless : isSpace character = false := by
    rw [← isKey.trimmed] at member
    exact startsOff_dropWhile isSpace (rtrim key) character member
  have other : character ≠ ';' := by
    rintro rfl
    exact isKey.noEnd (List.mem_of_mem_head? member)
  simp [blankless, other]

theorem IsKey.isWritten {key : List Char} (isKey : IsKey key) : IsWritten key :=
  ⟨isKey.nonempty, isKey.startsOff, isKey.noSign⟩

theorem render_startsOff (ended : Bool) {pairs : List (List Char × List Char)}
    (keys : ∀ pair ∈ pairs, IsKey pair.1) : StartsOff isSpace (render ended pairs) := by
  have first (pair) (isKey : IsKey pair.1) (rest) : StartsOff isSpace (renderPair pair ++ rest) := by
    rw [renderPair, List.append_assoc, List.append_assoc]
    exact startsOff_append (startsOff_mono (fun _ held => by simp [held]) isKey.startsOff)
      fun empty => absurd empty isKey.nonempty
  match pairs with
  | [] => exact startsOff_nil _
  | [pair] => exact first pair (keys pair (by simp)) _
  | pair :: next :: rest => exact first pair (keys pair (by simp)) _

theorem reads_renderPair {pair : List Char × List Char} {rest : List Char} {pairs : List Pair}
    (isKey : IsKey pair.1) (closes : rest.head? ≠ some '}')
    (more : Reads (behindPair rest) pairs false) :
    Reads (renderPair pair ++ rest) (bracedPair pair :: pairs) false := by
  have whole := Reads.pair blank_nil isKey.isWritten blank_nil
    (.braced closes : WritesValue (bracedPair pair) _ rest) more
  simpa [renderPair, bracedPair] using whole

theorem render_reads (ended : Bool) {pairs : List (List Char × List Char)}
    (keys : ∀ pair ∈ pairs, IsKey pair.1) :
    Reads (render ended pairs) (pairs.map bracedPair) false := by
  induction pairs with
  | nil => exact .done
  | cons pair pairs ih =>
      have isKey := keys pair (by simp)
      have later : ∀ pair ∈ pairs, IsKey pair.1 := fun other member => keys other (by simp [member])
      have tail := ih later
      cases pairs with
      | nil =>
          cases ended with
          | false => exact reads_renderPair isKey (by simp) .done
          | true => exact reads_renderPair isKey (by decide) .done
      | cons next rest =>
          have same : behindPair (';' :: render ended (next :: rest)) = render ended (next :: rest) := by
            have off := skipSpace_blank blank_nil (render_startsOff ended later)
            simpa [behindPair, skipSpace, isSpace] using off
          exact reads_renderPair isKey (by simp) (by rw [same]; exact tail)

theorem lastPair_braced {pairs : List (List Char × List Char)}
    (keys : ∀ pair ∈ pairs, IsKey pair.1) (key : List Char) :
    (lastPair key (pairs.map bracedPair)).map Pair.given = lastValue key pairs := by
  induction pairs with
  | nil => rfl
  | cons pair pairs ih =>
      have later := ih fun other member => keys other (by simp [member])
      have named : (bracedPair pair).key = pair.1 := (keys pair (by simp)).trimmed
      rw [List.map_cons, lastPair, lastValue, ← later, named]
      cases lastPair key (pairs.map bracedPair) with
      | some last => rfl
      | none =>
          by_cases same : toUpper pair.1 = toUpper key
          · simp [same, Pair.given, bracedPair]
          · simp [same]

/-- The keys of a result are short and without zeros. -/
def Short (res : StringMap) : Prop := ∀ entry ∈ res, entry.1.length < keyLimit ∧ '\x00' ∉ entry.1

theorem set_short {key value : List Char} {res : StringMap} (short : Short res)
    (here : key.length < keyLimit ∧ '\x00' ∉ key) : Short (res.set key value) := by
  induction res with
  | nil => simpa [Short, StringMap.set] using here
  | cons entry rest ih =>
      obtain ⟨first, later⟩ := List.forall_mem_cons.mp short
      rw [StringMap.set]
      split
      · exact List.forall_mem_cons.mpr ⟨first, later⟩
      · exact List.forall_mem_cons.mpr ⟨first, ih later⟩

theorem toUpper_zero {character : Char} (zero : character.toUpper = '\x00') :
    character = '\x00' := by
  by_cases lower : 'a'.val ≤ character.val ∧ character.val ≤ 'z'.val
  · have raised : character.toUpper = ⟨character.val + ('A'.val - 'a'.val), _⟩ := dif_pos lower
    have least : 97 ≤ character.val.toNat := UInt32.le_iff_toNat_le.mp lower.1
    have most : character.val.toNat ≤ 122 := UInt32.le_iff_toNat_le.mp lower.2
    have shift : ('A'.val - 'a'.val).toNat = 4294967264 := by decide
    have nothing : '\x00'.toNat = 0 := by decide
    have value := congrArg Char.toNat zero
    rw [raised, nothing, Char.toNat, UInt32.toNat_add, shift] at value
    omega
  · have kept : character.toUpper = character := dif_neg lower
    rw [← kept, zero]

/-- Only a short key without zeros is found. -/
theorem lookup_short {key value : List Char} {res : StringMap} (short : Short res)
    (found : res.lookup key = some value) : key.length < keyLimit ∧ '\x00' ∉ key := by
  induction res with
  | nil => cases found
  | cons entry rest ih =>
      obtain ⟨⟨first, zeroless⟩, later⟩ := List.forall_mem_cons.mp short
      rw [StringMap.lookup] at found
      split at found
      · rename_i same
        have long := congrArg List.length same
        simp only [toUpper, List.length_map] at long
        refine ⟨long ▸ first, fun member => zeroless ?_⟩
        have raised : '\x00' ∈ toUpper key := List.mem_map.mpr ⟨_, member, rfl⟩
        rw [← same] at raised
        obtain ⟨character, kept, zero⟩ := List.mem_map.mp raised
        exact toUpper_zero zero ▸ kept
      · exact ih later found

theorem behindPair_sublist (rest : List Char) : (behindPair rest).Sublist rest := by
  have first := List.dropWhile_sublist isSpace (l := rest)
  rw [behindPair]
  split
  · rename_i more same
    rw [skipSpace] at same
    rw [same] at first
    exact (List.dropWhile_sublist isSpace).trans ((List.sublist_cons_self _ _).trans first)
  · exact (List.dropWhile_sublist isSpace).trans first

theorem reads_zeroless {text : List Char} {pairs : List Pair} {dangling : Bool}
    (reads : Reads text pairs dangling) (zeroless : '\x00' ∉ text) :
    ∀ pair ∈ pairs, '\x00' ∉ pair.written := by
  induction reads with
  | done => simp
  | blanks => simp
  | empty _ _ ih => exact ih fun member => zeroless (by simp [member])
  | @pair _ _ _ rest _ _ _ _ _ _ _ _ ih =>
      refine List.forall_mem_cons.mpr ⟨fun member => zeroless (by simp [member]), ih ?_⟩
      intro member
      exact zeroless (by simp [(behindPair_sublist rest).subset member])

theorem stored_short {pairs : List Pair} (zeroless : ∀ pair ∈ pairs, '\x00' ∉ pair.written)
    {res : StringMap} (short : Short res) : Short (stored pairs res) := by
  induction pairs generalizing res with
  | nil => exact short
  | cons pair pairs ih =>
      obtain ⟨here, later⟩ := List.forall_mem_cons.mp zeroless
      have sublist := trim_sublist (pair.written.take (pair.written.length % keyLimit))
      refine ih later (set_short short ⟨?_, ?_⟩)
      · have counted : pair.written.length % keyLimit < keyLimit := Nat.mod_lt _ (by decide)
        have shorter := sublist.length_le
        rw [List.length_take] at shorter
        omega
      · intro member
        exact here (List.mem_of_mem_take (sublist.subset member))

theorem cString_zeroless (memory : List Char) : '\x00' ∉ cString memory := by
  intro member
  simpa using List.mem_takeWhile_imp member

theorem parsed_short (connStr : List Char) : Short (parsed connStr) := by
  rw [parsed]
  cases succeeded : parseLoop (cString connStr) [] with
  | none => simp [Short]
  | some map =>
      obtain ⟨pairs, reads⟩ := reads_of_parseLoop succeeded
      have scanned := parseLoop_reads reads []
      rw [succeeded] at scanned
      split at scanned
      · cases scanned
      · cases scanned
        exact stored_short (reads_zeroless reads (cString_zeroless connStr)) (by simp [Short])

theorem parsed_complete_iff {connStr : List Char} {pairs : List Pair} {dangling : Bool}
    (reads : Reads (cString connStr) pairs dangling) (kept : ∀ pair ∈ pairs, pair.Kept) :
    Complete (parsed connStr) pairs ↔
      (dangling = true → pairs = []) ∧ (dangling = false → LastTrimmed pairs) := by
  have counted : ¬∃ pair ∈ pairs, pair.written.length % keyLimit = 0 := by
    rintro ⟨pair, member, zero⟩
    exact counted_of_kept (reads_written reads pair member) (kept pair member) zero
  rw [parsed, parseLoop_reads reads]
  cases dangling with
  | false => simpa [counted] using stored_complete_iff kept
  | true => simpa using nil_complete_iff pairs

theorem parsed_says_iff {connStr : List Char} {items : List Item}
    (reading : Says false (cString connStr) items) (kept : ∀ pair ∈ pairsOf items, pair.Kept) :
    Complete (parsed connStr) (pairsOf items) ↔
      (EndsInBlanks items → pairsOf items = []) ∧ LastTrimmed (pairsOf items) := by
  rw [parsed_complete_iff reading.reads.1 kept]
  by_cases none : pairsOf items = []
  · have trimmed : LastTrimmed [] := by
      intro key last found
      cases found
    simp [none, trimmed]
  · rw [dangling_iff_of_pair none, ← Bool.not_eq_true, dangling_iff_of_pair none]
    simp only [none, imp_false]
    constructor
    · rintro ⟨inside, trimmed⟩
      exact ⟨inside, trimmed inside⟩
    · rintro ⟨inside, trimmed⟩
      exact ⟨inside, fun _ => trimmed⟩

/-- A lenient reading without blanks at the end whose keys are not counted as empty. -/
def Lenient (text : List Char) : Prop :=
  ∃ items, Says true text items ∧ ¬EndsInBlanks items ∧
    ∀ pair ∈ pairsOf items, pair.written.length % keyLimit ≠ 0

theorem set_ne_nil (key value : List Char) (res : StringMap) : res.set key value ≠ [] := by
  cases res with
  | nil => simp [StringMap.set]
  | cons entry rest =>
      rw [StringMap.set]
      split <;> simp

theorem stored_ne_nil {pairs : List Pair} {res : StringMap} (some : pairs ≠ [] ∨ res ≠ []) :
    stored pairs res ≠ [] := by
  induction pairs generalizing res with
  | nil => exact some.resolve_left (by simp)
  | cons pair pairs ih => exact ih (.inr (set_ne_nil _ _ res))

theorem parsed_malformed_iff {connStr : List Char}
    (malformed : ¬∃ items, Says false (cString connStr) items) :
    parsed connStr = [] ↔ ¬Lenient (cString connStr) := by
  have paired {items : List Item} (reading : Says true (cString connStr) items) :
      pairsOf items ≠ [] := fun none => malformed ⟨items, reading.strict none⟩
  constructor
  · rintro empty ⟨items, reading, inside, counted⟩
    have some := paired reading
    have closed : ¬dangling true items = true := by rwa [dangling_iff_of_pair some]
    have scanned : ¬(dangling true items = true ∨
        ∃ pair ∈ pairsOf items, pair.written.length % keyLimit = 0) := by
      rintro (ends | ⟨pair, member, zero⟩)
      · exact closed ends
      · exact counted pair member zero
    rw [parsed, parseLoop_reads reading.reads.1, if_neg scanned] at empty
    exact stored_ne_nil (.inl some) empty
  · intro strict
    cases succeeded : parseLoop (cString connStr) [] with
    | none => rw [parsed, succeeded]; rfl
    | some map =>
        obtain ⟨pairs, reads⟩ := reads_of_parseLoop succeeded
        have scanned := parseLoop_reads reads []
        obtain ⟨items, reading, rfl, inside⟩ := reads.says
        rw [succeeded] at scanned
        split at scanned
        · cases scanned
        · rename_i counted
          refine absurd ⟨items, reading, ?_, ?_⟩ strict
          · rw [← dangling_iff_of_pair (paired reading), inside]
            simp
          · intro pair member zero
            exact counted (.inr ⟨pair, member, zero⟩)

theorem bracedPair_kept {pair : List Char × List Char} (short : pair.1.length < keyLimit) :
    (bracedPair pair).Kept := by
  rw [Pair.Kept, Pair.key, bracedPair, Nat.mod_eq_of_lt short, List.take_length]

theorem lastTrimmed_braced {pairs : List (List Char × List Char)}
    (keys : ∀ pair ∈ pairs, IsKey pair.1) :
    LastTrimmed (pairs.map bracedPair) ↔
      ∀ key value, lastValue key pairs = some value → trim value = value := by
  have braced {key last} (found : lastPair key (pairs.map bracedPair) = some last) :
      last.braced = true := by
    obtain ⟨pair, _, rfl⟩ := List.mem_map.mp (lastPair_mem found)
    rfl
  constructor
  · intro trimmed key value found
    rw [← lastPair_braced keys, Option.map_eq_some_iff] at found
    obtain ⟨last, found, rfl⟩ := found
    rw [Pair.given, if_pos (braced found)]
    exact trimmed key last found (braced found)
  · intro trimmed key last found _
    apply trimmed key
    rw [← lastPair_braced keys, found, Option.map_some, Pair.given, if_pos (braced found)]

theorem double_zeroless {value : List Char} (zeroless : '\x00' ∉ value) : '\x00' ∉ double value := by
  induction value with
  | nil => simp
  | cons character value ih =>
      obtain ⟨here, later⟩ := not_or.mp (fun member => zeroless (List.mem_cons.mpr member))
      by_cases brace : character = '}'
      · simp [brace, ih later]
      · simp [brace, here, ih later]

theorem render_zeroless (ended : Bool) {pairs : List (List Char × List Char)}
    (zeroless : ∀ pair ∈ pairs, '\x00' ∉ pair.1 ∧ '\x00' ∉ pair.2) :
    '\x00' ∉ render ended pairs := by
  have one (pair : List Char × List Char) (here : '\x00' ∉ pair.1 ∧ '\x00' ∉ pair.2) :
      '\x00' ∉ renderPair pair := by
    simp [renderPair, here.1, double_zeroless here.2]
  induction pairs with
  | nil => simp [render]
  | cons pair pairs ih =>
      obtain ⟨here, later⟩ := List.forall_mem_cons.mp zeroless
      cases pairs with
      | nil => cases ended <;> simp [render, one pair here]
      | cons next rest => simp [render, one pair here, ih later]

theorem lastValue_key {pair : List Char × List Char} {pairs : List (List Char × List Char)}
    (member : pair ∈ pairs) : ∃ value, lastValue pair.1 pairs = some value := by
  induction pairs with
  | nil => cases member
  | cons first pairs ih =>
      rw [lastValue]
      cases found : lastValue pair.1 pairs with
      | some last => exact ⟨last, rfl⟩
      | none =>
          rcases List.mem_cons.mp member with rfl | later
          · exact ⟨pair.2, by simp⟩
          · obtain ⟨value, other⟩ := ih later
            rw [found] at other
            cases other

theorem lastValue_mem {key value : List Char} {pairs : List (List Char × List Char)}
    (found : lastValue key pairs = some value) : ∃ pair ∈ pairs, pair.2 = value := by
  induction pairs with
  | nil => cases found
  | cons first pairs ih =>
      rw [lastValue] at found
      split at found
      · rename_i last other
        obtain ⟨pair, member, same⟩ := ih (other.trans found)
        exact ⟨pair, List.mem_cons_of_mem _ member, same⟩
      · split at found
        · cases found
          exact ⟨first, by simp, rfl⟩
        · cases found

theorem parsed_render_iff (ended : Bool) {pairs : List (List Char × List Char)}
    (valid : ∀ pair ∈ pairs, IsKey pair.1 ∧ '\x00' ∉ pair.2) :
    (∀ key, (parsed (render ended pairs)).lookup key = lastValue key pairs) ↔
      (∀ pair ∈ pairs, pair.1.length < keyLimit ∧ '\x00' ∉ pair.1) ∧
        ∀ key value, lastValue key pairs = some value → trim value = value := by
  have keys : ∀ pair ∈ pairs, IsKey pair.1 := fun pair member => (valid pair member).1
  have fitting (fit : ∀ pair ∈ pairs, pair.1.length < keyLimit ∧ '\x00' ∉ pair.1) :
      (∀ key, (parsed (render ended pairs)).lookup key = lastValue key pairs) ↔
        ∀ key value, lastValue key pairs = some value → trim value = value := by
    have whole : cString (render ended pairs) = render ended pairs :=
      cString_self (render_zeroless ended fun pair member =>
        ⟨(fit pair member).2, (valid pair member).2⟩)
    have complete := parsed_complete_iff (whole.symm ▸ render_reads ended keys) fun pair member => by
      obtain ⟨given, inside, rfl⟩ := List.mem_map.mp member
      exact bracedPair_kept (fit given inside).1
    simpa [Complete, lastPair_braced keys, lastTrimmed_braced keys] using complete
  constructor
  · intro sent
    have fit : ∀ pair ∈ pairs, pair.1.length < keyLimit ∧ '\x00' ∉ pair.1 := by
      intro pair member
      obtain ⟨value, found⟩ := lastValue_key member
      exact lookup_short (parsed_short _) ((sent pair.1).trans found)
    exact ⟨fit, (fitting fit).mp sent⟩
  · rintro ⟨fit, trimmed⟩
    exact (fitting fit).mpr trimmed

theorem parseConnectionString_complete_iff (calls : List (List Char)) :
    (∀ (ended : Bool) (pairs : List (List Char × List Char)),
      (∀ pair ∈ pairs, IsKey pair.1 ∧ '\x00' ∉ pair.2) →
      ((∀ key, (parseConnectionString (cacheBehind calls) (render ended pairs)).1.lookup key =
          lastValue key pairs) ↔
        (∀ pair ∈ pairs, pair.1.length < keyLimit ∧ '\x00' ∉ pair.1) ∧
          ∀ key value, lastValue key pairs = some value → trim value = value)) ∧
    (∀ connStr, (¬∃ items, Says false (cString connStr) items) →
      ((parseConnectionString (cacheBehind calls) connStr).1 = [] ↔ ¬Lenient (cString connStr))) ∧
    ∀ connStr items, Says false (cString connStr) items → (∀ pair ∈ pairsOf items, pair.Kept) →
      (Complete (parseConnectionString (cacheBehind calls) connStr).1 (pairsOf items) ↔
        (EndsInBlanks items → pairsOf items = []) ∧ LastTrimmed (pairsOf items)) := by
  simp only [parseConnectionString_fst (cacheBehind_faithful calls)]
  exact ⟨fun ended pairs valid => parsed_render_iff ended valid,
    fun connStr malformed => parsed_malformed_iff malformed,
    fun connStr items reading kept => parsed_says_iff reading kept⟩

theorem itemText_plain {lenient : Bool} (written value : List Char)
    (key : KeyText lenient written)
    (noEnd : ';' ∉ value)
    (start : StartsOff (fun character => isSpace character || character == '{') value) :
    ItemText lenient (written ++ '=' :: value) (.pair ⟨written, value, false⟩) :=
  .pair blank_nil key blank_nil (.plain noEnd start)

/-- A password with a brace and a semicolon behind a user, a short text, and a key that holds
a semicolon. -/
theorem parseConnectionString_complete_password :
    (parseConnectionString (cacheBehind [['k', '='], ['k', '=']])
      (render false [(['u', 'i', 'd'], ['m', 'e']), (['P', 'w', 'd'], ['a', '}', ';', 'b'])])).1.lookup
        ['P', 'W', 'D'] = some ['a', '}', ';', 'b'] ∧
    Complete (parseConnectionString (cacheBehind [['k', '='], ['k', '=']]) ['k', '=', 'v', ';']).1
      [⟨['k'], ['v'], false⟩] ∧
    (parseConnectionString (cacheBehind [['k', '='], ['k', '=']]) ['a', ';', 'b', '=', 'c']).1 ≠ [] := by
  have holds := parseConnectionString_complete_iff [['k', '='], ['k', '=']]
  refine ⟨?_, ?_, ?_⟩
  · have sent := (holds.1 false
      [(['u', 'i', 'd'], ['m', 'e']), (['P', 'w', 'd'], ['a', '}', ';', 'b'])] ?_).mpr ?_
    · exact (sent ['P', 'W', 'D']).trans (by decide)
    · simp only [List.forall_mem_cons]
      exact ⟨⟨⟨by decide, by decide, by decide, by decide⟩, by decide⟩,
        ⟨⟨by decide, by decide, by decide, by decide⟩, by decide⟩, by simp⟩
    · refine ⟨by decide, ?_⟩
      intro key value found
      obtain ⟨pair, member, same⟩ := lastValue_mem found
      have inside : ∀ pair ∈ [(['u', 'i', 'd'], ['m', 'e']), (['P', 'w', 'd'], ['a', '}', ';', 'b'])],
          trim pair.2 = pair.2 := by decide
      exact same ▸ inside pair member
  · have key : KeyText false ['k'] := ⟨by simp, by simp [StartsOff, isSpace], by decide, by decide⟩
    have item := itemText_plain ['k'] ['v'] key (by decide) (by simp [StartsOff, isSpace])
    have reading : Says false ['k', '=', 'v', ';'] [.pair ⟨['k'], ['v'], false⟩, .empty []] :=
      .more item (.last (.empty blank_nil))
    refine (holds.2.2 ['k', '=', 'v', ';'] _ reading (by decide)).mpr ⟨?_, ?_⟩
    · rintro ⟨front, blanks, last, whole, nonempty⟩
      have same := congrArg List.getLast? whole
      simp at same
      exact absurd same nonempty
    · intro key last found braced
      obtain rfl := List.mem_singleton.mp (lastPair_mem found)
      cases braced
  · have key : KeyText true ['a', ';', 'b'] :=
      ⟨by simp, by simp [StartsOff, isSpace], by decide, by decide⟩
    have reading : Says true ['a', ';', 'b', '=', 'c'] [.pair ⟨['a', ';', 'b'], ['c'], false⟩] :=
      .last (itemText_plain ['a', ';', 'b'] ['c'] key (by decide) (by simp [StartsOff, isSpace]))
    have malformed : ¬∃ items, Says false ['a', ';', 'b', '=', 'c'] items := by
      rintro ⟨items, strict⟩
      rcases strict.sign_first with blank | signed
      · exact absurd (blank 'a' (by decide)) (by decide)
      · exact absurd signed (by decide)
    intro empty
    refine (holds.2.1 ['a', ';', 'b', '=', 'c'] malformed).mp empty ⟨_, reading, ?_, by decide⟩
    rintro ⟨front, blanks, last, whole, _⟩
    have two := congrArg List.length whole
    simp at two

unseal parseLoop in
/-- The blanks of a quoted value are lost, a blank behind an empty pair loses the map, and a
key without a value becomes part of the next one. -/
theorem parseConnectionString_complete_wrong :
    (render true [(['k'], [' ', 'v', ' '])] = ['k', '=', '{', ' ', 'v', ' ', '}', ';'] ∧
      (parseConnectionString (cacheBehind []) ['k', '=', '{', ' ', 'v', ' ', '}', ';']).1.lookup ['k'] =
        some ['v'] ∧ lastValue ['k'] [(['k'], [' ', 'v', ' '])] = some [' ', 'v', ' ']) ∧
    (Says false ['k', '=', 'v', ';', ';', ' ']
        [.pair ⟨['k'], ['v'], false⟩, .empty [], .empty [' ']] ∧
      (parseConnectionString (cacheBehind []) ['k', '=', 'v', ';', ';', ' ']).1 = []) ∧
    (¬∃ items, Says false ['U', 'I', 'D', ';', 'P', 'W', 'D', '=', 'x'] items) ∧
      (parseConnectionString (cacheBehind []) ['U', 'I', 'D', ';', 'P', 'W', 'D', '=', 'x']).1 =
        [(['U', 'I', 'D', ';', 'P', 'W', 'D'], ['x'])] := by
  refine ⟨by decide, ⟨?_, by decide⟩, ?_, by decide⟩
  · have key : KeyText false ['k'] := ⟨by simp, by simp [StartsOff, isSpace], by decide, by decide⟩
    have item := itemText_plain ['k'] ['v'] key (by decide) (by simp [StartsOff, isSpace])
    have blank : ItemText false [' '] (.empty [' ']) := .empty (by simp [Blank, isSpace])
    exact .more item (.more (.empty blank_nil) (.last blank))
  · rintro ⟨items, reading⟩
    rcases reading.sign_first with blank | signed
    · exact absurd (blank 'U' (by decide)) (by decide)
    · exact absurd signed (by decide)

end RedshiftOdbc.Connect
