import RedshiftOdbc.Library.CText

/-!
# Reading the INI file

A value is looked for line by line: first the header of the section, then the key.  An
access outside of the line that was read or of the caller's buffer is `none`.
-/

namespace RedshiftOdbc.Connect.Ini

open RedshiftOdbc.CText

def iniBufferSize : Nat := 16384

def iniKeySize : Nat := 128

/-- A line as a C string, with its line break; empty where its first byte is a NUL. -/
abbrev Line := List UInt8

def readLines (file : List UInt8) : List Line := (lines iniBufferSize file).map cString

/-- `isCommentLine`; a line of blanks is a comment too. -/
def isCommentLine (pBuffer : List UInt8) : Bool :=
  match pBuffer.dropWhile (· = 32) with
  | [] => true
  | byte :: _ => byte = 59

def opensSection (pBuffer : List UInt8) : Bool :=
  (pBuffer.dropWhile (· = 32)).head? = some 91

/-- `isSection`, which looks for the closing bracket behind the end of the line too. -/
def isSection (pBuffer : List UInt8) : Option Bool :=
  if opensSection pBuffer then if 93 ∈ pBuffer then some true else none else some false

/-- `snprintf` of the name in brackets; a name that is `NULL` is printed as such. -/
def sectionSearch (pSectionName : Option (List UInt8)) : List UInt8 :=
  (91 :: (cString (pSectionName.getD [40, 110, 117, 108, 108, 41]) ++ [93])).take (iniKeySize - 1)

/-- The key in its array; a key that fills it goes on with what is behind the array. -/
def keySearch (behind pKey : List UInt8) : List UInt8 :=
  if (cString pKey).length < iniKeySize then cString pKey
  else (cString pKey).take iniKeySize ++ cString behind

/-- The parts of a line around its first `=`. -/
def splitKey (buffer : List UInt8) : Option (List UInt8 × List UInt8) :=
  if 61 ∈ buffer then
    some (buffer.takeWhile (· ≠ 61), (buffer.dropWhile (· ≠ 61)).drop 1)
  else none

/-- The loop that looks for the section: what is behind its header, if it is there. -/
def findSection (search : List UInt8) : List Line → Option (Option (List Line))
  | [] => some none
  | line :: rest =>
      if line = [] then none
      else if isCommentLine (chomp line) then findSection search rest
      else if sameText search (chomp line) then some (some rest)
      else findSection search rest

/-- The loop that looks for a key: the text behind the `=`, if the key is there. -/
def findKey (search : List UInt8) : List Line → Option (Option (List UInt8))
  | [] => some none
  | line :: rest =>
      if line = [] then none
      else if isCommentLine (chomp line) then findKey search rest
      else
        match isSection (chomp line) with
        | none => none
        | some true => some none
        | some false =>
            match splitKey (chomp line) with
            | none => findKey search rest
            | some (key, value) =>
                if sameText search (trim key) then some (some value) else findKey search rest

/-- The loop that lists the lines of a section: the buffer and `iSizeLeft`. -/
def listKeys (pReturn : List UInt8) (pNextWrite : Nat) (iSizeLeft : Int) :
    List Line → Option (List UInt8 × Int)
  | [] => some (pReturn, iSizeLeft)
  | line :: rest =>
      if line = [] then none
      else if isCommentLine (chomp line) then listKeys pReturn pNextWrite iSizeLeft rest
      else
        match isSection (chomp line) with
        | none => none
        | some true => some (pReturn, iSizeLeft)
        | some false =>
            match strncpy pReturn pNextWrite (chomp line) iSizeLeft.toNat with
            | none => none
            | some copied =>
                let pNextWrite := pNextWrite + (chomp line).length + 1
                let iSizeLeft := iSizeLeft - (chomp line).length - 1
                match store copied pNextWrite [0] with
                | none => none
                | some ended =>
                    if iSizeLeft ≤ 1 then
                      (store ended (pReturn.length - 1) [0]).map fun closed => (closed, 0)
                    else listKeys ended pNextWrite iSizeLeft rest

/-- The default: `NULL`, the buffer itself or another text. -/
inductive Default where
  | null
  | pReturn
  | text (pDflt : List UInt8)
  deriving DecidableEq, Repr

/-- What is looked for, and the bytes behind the array that the key is copied to. -/
structure Request where
  pSectionName : Option (List UInt8)
  pKey : Option (List UInt8)
  pDflt : Default
  behind : List UInt8
  deriving DecidableEq, Repr

/-- What a text counts for in the value that is returned. -/
def counted (iSize : Nat) (text : List UInt8) : Int :=
  if iSize ≤ text.length then iSize else text.length

/-- Without a file the default is copied as it is; a `NULL` is read there. -/
def withoutFile (pDflt : Default) (pReturn : List UInt8) : Option (List UInt8 × Int) :=
  match pDflt with
  | .null => none
  | .pReturn =>
      (strncpy pReturn 0 pReturn pReturn.length).map fun copied =>
        (copied, counted pReturn.length (cString pReturn))
  | .text pDflt =>
      (strncpy pReturn 0 pDflt pReturn.length).map fun copied =>
        (copied, counted pReturn.length (cString pDflt))

/-- The default when the key is not found; the first byte of the buffer is a NUL by then. -/
def notFound (pDflt : Default) (pReturn : List UInt8) : Option (List UInt8 × Int) :=
  match pDflt with
  | .null => some (pReturn, 0)
  | .pReturn => some (pReturn, counted pReturn.length (cString pReturn))
  | .text pDflt =>
      (strncpy pReturn 0 pDflt pReturn.length).map fun copied =>
        (copied, counted pReturn.length (cString pDflt))

/-- The text behind the `=` as it stands when its blanks are gone. -/
def trimmedInPlace (pChar : List UInt8) : List UInt8 :=
  if trim pChar = [] then pChar else pChar.rdropWhile isSpace

/-- `getPrivateProfileStringWithFullPath` with a buffer of `iSize` bytes. -/
def getPrivateProfileStringWithFullPath (request : Request) (file : Option (List UInt8))
    (pReturn : List UInt8) : Option (List UInt8 × Int) :=
  match file with
  | none => withoutFile request.pDflt pReturn
  | some file =>
      match store pReturn 0 [0], findSection (sectionSearch request.pSectionName) (readLines file)
      with
      | some started, some none =>
          if request.pKey = none then some (started, 1) else notFound request.pDflt started
      | some started, some (some rest) =>
          match request.pKey with
          | none =>
              (listKeys started 0 (pReturn.length - 1) rest).map fun listed =>
                (listed.1, pReturn.length - listed.2)
          | some pKey =>
              match findKey (keySearch request.behind pKey) rest with
              | none => none
              | some none => notFound request.pDflt started
              | some (some pChar) =>
                  (strncpy started 0 (trim pChar) pReturn.length).map fun copied =>
                    (copied, counted pReturn.length (trimmedInPlace pChar))
      | _, _ => none

/-! ## What the loops find -/

def isHeader (search : List UInt8) (line : Line) : Bool :=
  !isCommentLine (chomp line) && sameText search (chomp line)

def sectionBody (search : List UInt8) (lines : List Line) : Option (List Line) :=
  match lines.dropWhile fun line => !isHeader search line with
  | [] => none
  | _ :: rest => some rest

/-- A line that is no comment and begins with a bracket. -/
def isBracket (line : Line) : Bool := !isCommentLine (chomp line) && opensSection (chomp line)

/-- The text behind the `=` of a line with the key. -/
def valueOf (search : List UInt8) (line : Line) : Option (List UInt8) :=
  (splitKey (chomp line)).bind fun parts =>
    if sameText search (trim parts.1) then some parts.2 else none

/-- A line at which the search for a key ends. -/
def endsSearch (search : List UInt8) (line : Line) : Bool :=
  isBracket line || (!isCommentLine (chomp line) && (valueOf search line).isSome)

def lastLine (search : List UInt8) (lines : List Line) : Option Line :=
  (lines.dropWhile fun line => !endsSearch search line).head?

/-- The text of the first line with the key in front of the next section. -/
def keyValue (search : List UInt8) (lines : List Line) : Option (List UInt8) :=
  (lastLine search lines).bind fun line => if isBracket line then none else valueOf search line

theorem isCommentLine_nil : isCommentLine (chomp []) = true := rfl

theorem findSection_eq (search : List UInt8) (lines : List Line) :
    findSection search lines =
      if [] ∈ lines.takeWhile (fun line => !isHeader search line) then none
      else some (sectionBody search lines) := by
  induction lines with
  | nil => rfl
  | cons line rest ih =>
      rw [findSection, sectionBody]
      by_cases empty : line = []
      · rw [if_pos empty, if_pos]
        rw [empty]
        simp [isHeader, isCommentLine_nil]
      · rw [if_neg empty]
        cases comment : isCommentLine (chomp line) with
        | true =>
            have passed : isHeader search line = false := by simp [isHeader, comment]
            rw [sectionBody] at ih
            simpa [passed, Ne.symm empty] using ih
        | false =>
            cases same : sameText search (chomp line) with
            | true =>
                have found : isHeader search line = true := by simp [isHeader, comment, same]
                simp [found]
            | false =>
                have passed : isHeader search line = false := by simp [isHeader, same]
                rw [sectionBody] at ih
                simpa [passed, Ne.symm empty] using ih

/-- The search for a key leaves the line at a NUL in front, or at a bracket that is not closed. -/
def LeavesLine (search : List UInt8) (lines : List Line) : Prop :=
  [] ∈ lines.takeWhile (fun line => !endsSearch search line) ∨
    ∃ line ∈ lastLine search lines, isBracket line = true ∧ 93 ∉ chomp line

instance (search : List UInt8) (lines : List Line) : Decidable (LeavesLine search lines) := by
  unfold LeavesLine
  infer_instance

theorem findKey_eq (search : List UInt8) (lines : List Line) :
    findKey search lines =
      if LeavesLine search lines then none else some (keyValue search lines) := by
  induction lines with
  | nil => rfl
  | cons line rest ih =>
      have passed (goes : endsSearch search line = false) (some_line : line ≠ []) :
          (if LeavesLine search (line :: rest) then none
            else some (keyValue search (line :: rest))) = findKey search rest := by
        simp [ih, LeavesLine, keyValue, lastLine, goes, Ne.symm some_line]
      have ended (stops : endsSearch search line = true) :
          lastLine search (line :: rest) = some line ∧
            (LeavesLine search (line :: rest) ↔ isBracket line = true ∧ 93 ∉ chomp line) := by
        simp [LeavesLine, lastLine, stops]
      rw [findKey]
      by_cases empty : line = []
      · rw [if_pos empty, if_pos]
        rw [empty]
        exact Or.inl (by simp [endsSearch, isBracket, isCommentLine_nil])
      · rw [if_neg empty]
        cases comment : isCommentLine (chomp line) with
        | true =>
            rw [if_pos rfl, passed (by simp [endsSearch, isBracket, comment]) empty]
        | false =>
            rw [if_neg Bool.false_ne_true, isSection]
            cases opens : opensSection (chomp line) with
            | true =>
                have bracket : isBracket line = true := by simp [isBracket, comment, opens]
                obtain ⟨last, leaves⟩ := ended (by simp [endsSearch, bracket])
                rw [if_pos rfl]
                by_cases closed : 93 ∈ chomp line
                · rw [if_pos closed, if_neg (by simp [leaves, closed]), keyValue, last]
                  simp [bracket]
                · rw [if_neg closed, if_pos (leaves.mpr ⟨bracket, closed⟩)]
            | false =>
                have inside : isBracket line = false := by simp [isBracket, opens]
                rw [if_neg Bool.false_ne_true]
                cases split : splitKey (chomp line) with
                | none =>
                    have none_value : valueOf search line = none := by simp [valueOf, split]
                    exact (passed (by simp [endsSearch, inside, none_value]) empty).symm
                | some parts =>
                    dsimp only
                    cases same : sameText search (trim parts.1) with
                    | true =>
                        have value : valueOf search line = some parts.2 := by
                          simp [valueOf, split, same]
                        obtain ⟨last, leaves⟩ :=
                          ended (by simp [endsSearch, comment, value])
                        rw [if_pos rfl, if_neg (by simp [leaves, inside]), keyValue, last]
                        simp [inside, value]
                    | false =>
                        have none_value : valueOf search line = none := by
                          simp [valueOf, split, same]
                        rw [if_neg Bool.false_ne_true]
                        exact (passed (by simp [endsSearch, inside, none_value]) empty).symm

/-! ## The list of a section -/

/-- The bytes that the lines take in the buffer; comments are not listed. -/
def listedSize : List Line → Nat
  | [] => 0
  | line :: rest =>
      (if isCommentLine (chomp line) then 0 else (chomp line).length + 1) + listedSize rest

/--
Every line that the list comes to has a byte in front of its first NUL, closes its bracket
if it is one, and else leaves room for a NUL behind it.  The list comes to no line behind a
bracket, nor behind an entry that leaves less than three bytes.
-/
def ListsWithin (iSize used : Nat) (lines : List Line) : Prop :=
  ∀ front line back, lines = front ++ line :: back →
    (∀ other ∈ front, isBracket other = false) →
    (used + listedSize front = 0 ∨ used + listedSize front + 2 < iSize) →
      line ≠ [] ∧ (isBracket line = true → 93 ∈ chomp line) ∧
        (isBracket line = false → used + listedSize (front ++ [line]) < iSize)

theorem listedSize_append (front back : List Line) :
    listedSize (front ++ back) = listedSize front + listedSize back := by
  induction front with
  | nil => simp [listedSize]
  | cons line front ih =>
      rw [List.cons_append, listedSize, listedSize, ih]
      omega

theorem listedSize_cons (line : Line) (rest : List Line) :
    listedSize (line :: rest) = listedSize [line] + listedSize rest :=
  listedSize_append [line] rest

/-- The condition, one line at a time. -/
theorem listsWithin_cons {iSize used : Nat} {line : Line} {rest : List Line}
    (goes : used = 0 ∨ used + 2 < iSize) :
    ListsWithin iSize used (line :: rest) ↔
      (line ≠ [] ∧ (isBracket line = true → 93 ∈ chomp line) ∧
        (isBracket line = false → used + listedSize [line] < iSize)) ∧
      (isBracket line = false →
        (used + listedSize [line] = 0 ∨ used + listedSize [line] + 2 < iSize) →
          ListsWithin iSize (used + listedSize [line]) rest) := by
  constructor
  · intro within
    refine ⟨within [] line rest rfl (by simp) (by simpa [listedSize]), ?_⟩
    intro inside more front other back split plain reached
    have later := within (line :: front) other back (by rw [split]; rfl)
      (List.forall_mem_cons.mpr ⟨inside, plain⟩)
    rw [List.cons_append, listedSize_cons line front, listedSize_cons line (front ++ [other]),
      ← Nat.add_assoc, ← Nat.add_assoc] at later
    exact later reached
  · rintro ⟨first, later⟩ front other back split plain reached
    cases front with
    | nil =>
        obtain ⟨rfl, rfl⟩ := List.cons.inj split
        exact first
    | cons head front =>
        obtain ⟨rfl, rfl⟩ := List.cons.inj split
        obtain ⟨inside, plain⟩ := List.forall_mem_cons.mp plain
        rw [listedSize_cons line front, ← Nat.add_assoc] at reached
        rw [List.cons_append, listedSize_cons line (front ++ [other]), ← Nat.add_assoc]
        refine later inside ?_ front other back rfl plain reached
        have first_size : listedSize [line] = 0 ∨ 0 < listedSize [line] := by omega
        omega

theorem listKeys_within {pReturn : List UInt8} {used : Nat} {iSizeLeft : Int} (lines : List Line)
    (size : (used : Int) + iSizeLeft + 1 = pReturn.length)
    (goes : used = 0 ∨ used + 2 < pReturn.length) (ended : 0 ∈ pReturn) :
    (∃ listed, listKeys pReturn used iSizeLeft lines = some listed ∧ 0 ∈ listed.1) ↔
      ListsWithin pReturn.length used lines := by
  induction lines generalizing pReturn used iSizeLeft with
  | nil =>
      refine iff_of_true ⟨_, rfl, ended⟩ fun front line back split => ?_
      exact absurd split (by simp)
  | cons line rest ih =>
      have some_room := List.length_pos_of_mem ended
      rw [listsWithin_cons goes, listKeys]
      by_cases empty : line = []
      · rw [if_pos empty]
        exact iff_of_false (fun found => nomatch found) fun within => within.1.1 empty
      · rw [if_neg empty]
        cases comment : isCommentLine (chomp line) with
        | true =>
            have inside : isBracket line = false := by simp [isBracket, comment]
            have nothing : listedSize [line] = 0 := by simp [listedSize, comment]
            have first : used + 0 < pReturn.length := by omega
            rw [if_pos rfl, ih size goes ended, nothing]
            exact ⟨fun later => ⟨⟨empty, by simp [inside], fun _ => first⟩, fun _ _ => later⟩,
              fun within => within.2 inside goes⟩
        | false =>
            rw [if_neg Bool.false_ne_true, isSection]
            cases opens : opensSection (chomp line) with
            | true =>
                have bracket : isBracket line = true := by simp [isBracket, comment, opens]
                rw [if_pos rfl]
                by_cases closed : 93 ∈ chomp line
                · rw [if_pos closed]
                  refine iff_of_true ⟨_, rfl, ended⟩ ⟨⟨empty, fun _ => closed, ?_⟩, ?_⟩
                  · simp [bracket]
                  · simp [bracket]
                · rw [if_neg closed]
                  exact iff_of_false (fun found => nomatch found)
                    fun within => closed (within.1.2.1 bracket)
            | false =>
                have inside : isBracket line = false := by simp [isBracket, opens]
                have entry : listedSize [line] = (chomp line).length + 1 := by
                  simp [listedSize, comment]
                obtain ⟨copied, copies, length⟩ :=
                  @strncpy_within pReturn used iSizeLeft.toNat (chomp line) (by omega)
                rw [if_neg Bool.false_ne_true, entry]
                dsimp only
                rw [copies]
                dsimp only
                cases stored : store copied (used + (chomp line).length + 1) [0] with
                | none =>
                    rw [store_eq_none_iff, length, List.length_singleton] at stored
                    refine iff_of_false (fun found => nomatch found) fun within => ?_
                    have fits := within.1.2.2 inside
                    omega
                | some written =>
                    have fits : used + (chomp line).length + 1 + 1 ≤ pReturn.length := by
                      by_contra outside
                      have missing := (@store_eq_none_iff _ copied [0]
                        (used + (chomp line).length + 1)).mpr
                          (by rw [length, List.length_singleton]; omega)
                      rw [missing] at stored
                      cases stored
                    have total : written.length = pReturn.length :=
                      (length_store stored).trans length
                    have zero : 0 ∈ written := mem_store stored (List.mem_singleton_self 0)
                    have first : line ≠ [] ∧ (isBracket line = true → 93 ∈ chomp line) ∧
                        (isBracket line = false →
                          used + ((chomp line).length + 1) < pReturn.length) :=
                      ⟨empty, by simp [inside], fun _ => by omega⟩
                    dsimp only
                    rw [and_iff_right first, forall_prop_of_true inside]
                    by_cases full : iSizeLeft - (chomp line).length - 1 ≤ 1
                    · obtain ⟨closed, closes⟩ : ∃ closed,
                          store written (pReturn.length - 1) [0] = some closed :=
                        ⟨_, if_pos (by rw [total, List.length_singleton]; omega)⟩
                      rw [if_pos full, closes]
                      refine iff_of_true ⟨_, rfl, mem_store closes (List.mem_singleton_self 0)⟩ ?_
                      intro more
                      omega
                    · have more : used + ((chomp line).length + 1) = 0 ∨
                          used + ((chomp line).length + 1) + 2 < pReturn.length := by omega
                      rw [if_neg full, forall_prop_of_true more, ← total, Nat.add_assoc]
                      exact ih (by rw [total]; push_cast; omega) (by rw [total]; exact more) zero

/-! ## Every read -/

/-- Nothing outside is touched, and what is left in the buffer ends in a NUL. -/
def ReadsInside (request : Request) (file : Option (List UInt8)) (pReturn : List UInt8) : Prop :=
  ∃ result, getPrivateProfileStringWithFullPath request file pReturn = some result ∧ 0 ∈ result.1

instance (request : Request) (file : Option (List UInt8)) (pReturn : List UInt8) :
    Decidable (ReadsInside request file pReturn) :=
  decidable_of_iff ((getPrivateProfileStringWithFullPath request file pReturn).any
    fun result => 0 ∈ result.1) (by simp [ReadsInside, Option.any_eq_true])

/-- A default that is another text is shorter than the buffer. -/
def DefaultFits (request : Request) (iSize : Nat) : Prop :=
  ∀ pDflt, request.pDflt = .text pDflt → (cString pDflt).length < iSize

/--
Without a file the default is a text shorter than the buffer.  With one, no line up to the
header begins with a NUL, nor a line of the section up to the key or the next bracket,
which is closed.  The list of the section, the value of the key or else the default is
shorter than the buffer.
-/
def Fits (request : Request) (file : Option (List UInt8)) (pReturn : List UInt8) : Prop :=
  match file with
  | none =>
      request.pDflt ≠ .null ∧ DefaultFits request pReturn.length ∧
        (request.pDflt = .pReturn → (cString pReturn).length < pReturn.length)
  | some file =>
      [] ∉ (readLines file).takeWhile
          (fun line => !isHeader (sectionSearch request.pSectionName) line) ∧
        match sectionBody (sectionSearch request.pSectionName) (readLines file), request.pKey with
        | none, none => True
        | none, some _ => DefaultFits request pReturn.length
        | some body, none => ListsWithin pReturn.length 0 body
        | some body, some pKey =>
            ¬LeavesLine (keySearch request.behind pKey) body ∧
              match keyValue (keySearch request.behind pKey) body with
              | none => DefaultFits request pReturn.length
              | some value => (cString (trim value)).length < pReturn.length

theorem notFound_iff {request : Request} {pReturn : List UInt8} (started : 0 ∈ pReturn) :
    (∃ result, notFound request.pDflt pReturn = some result ∧ 0 ∈ result.1) ↔
      DefaultFits request pReturn.length := by
  rw [notFound.eq_def, DefaultFits]
  cases request.pDflt with
  | null => exact iff_of_true ⟨_, rfl, started⟩ nofun
  | pReturn => exact iff_of_true ⟨_, rfl, started⟩ nofun
  | text pDflt =>
      obtain ⟨copied, copies, fits⟩ := @strncpy_whole pReturn pDflt
      simp only [copies, Option.map_some, Option.some.injEq, exists_eq_left', fits,
        Default.text.injEq, forall_eq']

/-- A read stays inside exactly when every line it comes to is sound and the text fits. -/
theorem readsInside_iff (request : Request) (file : Option (List UInt8)) (pReturn : List UInt8)
    (room : 1 ≤ pReturn.length) :
    ReadsInside request file pReturn ↔ Fits request file pReturn := by
  rw [ReadsInside, getPrivateProfileStringWithFullPath.eq_def, Fits.eq_def]
  cases file with
  | none =>
      rw [withoutFile.eq_def, DefaultFits]
      cases request.pDflt with
      | null => simp
      | pReturn =>
          obtain ⟨copied, copies, fits⟩ := @strncpy_whole pReturn pReturn
          simp [copies, fits]
      | text pDflt =>
          obtain ⟨copied, copies, fits⟩ := @strncpy_whole pReturn pDflt
          simp [copies, fits]
  | some file =>
      obtain ⟨started, starts⟩ : ∃ started, store pReturn 0 [0] = some started :=
        ⟨_, if_pos (by simpa using room)⟩
      have length : started.length = pReturn.length := length_store starts
      have zero : 0 ∈ started := mem_store starts (List.mem_singleton_self 0)
      dsimp only
      rw [starts, findSection_eq]
      by_cases leaves : [] ∈ (readLines file).takeWhile
          (fun line => !isHeader (sectionSearch request.pSectionName) line)
      · rw [if_pos leaves]
        exact iff_of_false (fun found => nomatch found) fun fits => fits.1 leaves
      · rw [if_neg leaves, and_iff_right leaves]
        cases sectionBody (sectionSearch request.pSectionName) (readLines file) with
        | none =>
            cases key : request.pKey with
            | none => exact iff_of_true ⟨_, rfl, zero⟩ trivial
            | some pKey =>
                dsimp only
                rw [if_neg nofun, notFound_iff zero, length]
        | some body =>
            cases key : request.pKey with
            | none =>
                have listed := @listKeys_within started 0 (pReturn.length - 1) body
                  (by rw [length]; omega) (Or.inl rfl) zero
                dsimp only
                rw [← length, ← listed, length]
                simp only [Option.map_eq_some_iff]
                constructor
                · rintro ⟨_, ⟨listed, done, rfl⟩, ended⟩
                  exact ⟨listed, done, ended⟩
                · rintro ⟨listed, done, ended⟩
                  exact ⟨_, ⟨listed, done, rfl⟩, ended⟩
            | some pKey =>
                dsimp only
                rw [findKey_eq]
                by_cases outside : LeavesLine (keySearch request.behind pKey) body
                · rw [if_pos outside]
                  exact iff_of_false (fun found => nomatch found) fun fits => fits.1 outside
                · rw [if_neg outside, and_iff_right outside]
                  cases keyValue (keySearch request.behind pKey) body with
                  | none =>
                      dsimp only
                      rw [notFound_iff zero, length]
                  | some value =>
                      obtain ⟨copied, copies, fits⟩ := @strncpy_whole started (trim value)
                      rw [length] at copies fits
                      simp [copies, fits]

/-- A request for a key of a section, with an empty default. -/
def keyRequest (pSectionName pKey : String) : Request :=
  ⟨some (bytes pSectionName), some (bytes pKey), .text [], []⟩

/-- A value that fits. -/
theorem readsInside_value :
    ReadsInside (keyRequest "dsn" "Port") (some (bytes "; drivers
[DSN]
 Port = 5439 
"))
        (List.replicate 8 1) ↔
      Fits (keyRequest "dsn" "Port") (some (bytes "; drivers
[DSN]
 Port = 5439 
"))
        (List.replicate 8 1) :=
  readsInside_iff _ _ _ (by decide)

/--
A value that fills the buffer, a line that begins with a NUL, a bracket that is not closed,
and a list that is longer than the buffer.
-/
theorem readsInside_wrong :
    ¬ReadsInside (keyRequest "s" "k") (some (bytes "[s]
k=ab
")) [1, 1] ∧
      ¬ReadsInside (keyRequest "s" "k") (some (0 :: bytes "
[s]
k=a
")) [1, 1, 1, 1] ∧
      ¬ReadsInside (keyRequest "s" "k") (some (bytes "[s]
[t
")) [1, 1, 1, 1] ∧
      ¬ReadsInside ⟨some (bytes "s"), none, .text [], []⟩ (some (bytes "[s]
k=a
")) [1, 1] := by
  decide

/-! ## What is read -/

/-- The text of a key: that of the first line with the key in the first section of the name. -/
def lookup (request : Request) (pKey file : List UInt8) : Option (List UInt8) :=
  (sectionBody (sectionSearch request.pSectionName) (readLines file)).bind
    (keyValue (keySearch request.behind pKey))

/-- The default that is left when nothing is found; the buffer itself was emptied. -/
def Default.kept : Default → List UInt8
  | .text pDflt => cString pDflt
  | _ => []

/-- What the two loops of the reader find. -/
def seek (search key : List UInt8) (lines : List Line) : Option (Option (List UInt8)) :=
  (findSection search lines).bind fun body => body.elim (some none) (findKey key)

def answer (pDflt : Default) (pReturn : List UInt8) :
    Option (Option (List UInt8)) → Option (List UInt8 × Int)
  | none => none
  | some none => (store pReturn 0 [0]).bind (notFound pDflt)
  | some (some pChar) =>
      (store pReturn 0 [0]).bind fun started =>
        (strncpy started 0 (trim pChar) pReturn.length).map fun copied =>
          (copied, counted pReturn.length (trimmedInPlace pChar))

/-- A read depends on what the loops find. -/
theorem read_eq_answer (request : Request) (pKey file pReturn : List UInt8)
    (asked : request.pKey = some pKey) :
    getPrivateProfileStringWithFullPath request (some file) pReturn =
      answer request.pDflt pReturn (seek (sectionSearch request.pSectionName)
        (keySearch request.behind pKey) (readLines file)) := by
  rw [getPrivateProfileStringWithFullPath.eq_def, seek, asked]
  unfold answer
  dsimp only
  simp only [reduceCtorEq, if_false]
  cases store pReturn 0 [0] with
  | none =>
      cases findSection (sectionSearch request.pSectionName) (readLines file) with
      | none => rfl
      | some body =>
          cases body with
          | none => rfl
          | some body =>
              rw [Option.bind_some, Option.elim_some]
              cases findKey (keySearch request.behind pKey) body with
              | none => rfl
              | some value => cases value <;> rfl
  | some started =>
      cases findSection (sectionSearch request.pSectionName) (readLines file) with
      | none => rfl
      | some body =>
          cases body with
          | none => rfl
          | some body =>
              dsimp only
              rw [Option.bind_some, Option.elim_some]
              cases findKey (keySearch request.behind pKey) body with
              | none => rfl
              | some value => cases value <;> rfl

/-- The text that a read leaves in its buffer, from what the loops find. -/
theorem answer_text {pDflt : Default} {pReturn : List UInt8} (room : 1 ≤ pReturn.length)
    (found : Option (List UInt8))
    (value_fits : ∀ value ∈ found, (cString (trim value)).length < pReturn.length)
    (default_fits : found = none →
      ∀ text, pDflt = .text text → (cString text).length < pReturn.length) :
    ∃ result, answer pDflt pReturn (some found) = some result ∧
      cString result.1 = (found.map fun value => cString (trim value)).getD pDflt.kept := by
  obtain ⟨started, starts⟩ : ∃ started, store pReturn 0 [0] = some started :=
    ⟨_, if_pos (by simpa using room)⟩
  have length : started.length = pReturn.length := length_store starts
  have emptied : cString started = [] := by
    rw [store, if_pos (by simpa using room)] at starts
    cases starts
    rfl
  rw [← length] at value_fits default_fits
  cases found with
  | none =>
      rw [answer, starts, Option.bind_some, notFound.eq_def]
      cases default : pDflt with
      | null => exact ⟨_, rfl, emptied⟩
      | pReturn => exact ⟨_, rfl, emptied⟩
      | text pDflt =>
          obtain ⟨copied, copies, -⟩ := @strncpy_whole started pDflt
          dsimp only
          rw [copies]
          exact ⟨_, rfl, strncpy_text copies (default_fits rfl pDflt default)⟩
  | some value =>
      obtain ⟨copied, copies, -⟩ := @strncpy_whole started (trim value)
      rw [answer, starts, Option.bind_some, ← length, copies]
      exact ⟨_, rfl, strncpy_text copies (value_fits value rfl)⟩

/-- A read that fits gives the first value of the key without its blanks, or else the default. -/
theorem read_text (request : Request) (pKey file pReturn : List UInt8)
    (asked : request.pKey = some pKey) (room : 1 ≤ pReturn.length)
    (fits : Fits request (some file) pReturn) :
    ∃ result, getPrivateProfileStringWithFullPath request (some file) pReturn = some result ∧
      cString result.1 =
        ((lookup request pKey file).map fun value => cString (trim value)).getD
          request.pDflt.kept := by
  rw [Fits.eq_def, asked] at fits
  dsimp only at fits
  rw [read_eq_answer request pKey file pReturn asked, seek, findSection_eq, if_neg fits.1,
    Option.bind_some, lookup]
  replace fits := fits.2
  cases found : sectionBody (sectionSearch request.pSectionName) (readLines file) with
  | none =>
      rw [found] at fits
      exact answer_text room none nofun fun _ => fits
  | some body =>
      rw [found] at fits
      dsimp only at fits
      rw [Option.elim_some, findKey_eq, if_neg fits.1, Option.bind_some]
      replace fits := fits.2
      cases first : keyValue (keySearch request.behind pKey) body with
      | none =>
          rw [first] at fits
          exact answer_text room none nofun fun _ => fits
      | some value =>
          rw [first] at fits
          refine answer_text room (some value) ?_ nofun
          rintro _ ⟨⟩
          exact fits

/-- The first value counts, and not that of another section. -/
theorem read_text_first :
    ∃ result, getPrivateProfileStringWithFullPath (keyRequest "b" "k")
        (some (bytes "[a]\nk=1\n[B]\nK = 2\nk=3\n")) (List.replicate 4 1) = some result ∧
      cString result.1 = bytes "2" := by
  have fits : Fits (keyRequest "b" "k") (some (bytes "[a]\nk=1\n[B]\nK = 2\nk=3\n"))
      (List.replicate 4 1) := by
    change [] ∉ _ ∧ ¬LeavesLine _ _ ∧ _ < _
    exact ⟨by decide, by decide, by decide⟩
  exact read_text (keyRequest "b" "k") _ _ _ rfl (by decide) fits

end RedshiftOdbc.Connect.Ini
