import RedshiftOdbc.Execute.ResultList
import Mathlib.Data.List.Chain

/-!
# Fetching reference cursors

`checkAndAutoFetchRefCursor` cuts the list behind the last result it has kept,
has the answers to a `FETCH ALL` appended, and joins the rest of the list again.
What an earlier cursor has fetched stands behind that result too.
-/

namespace RedshiftOdbc.ResultList

open RedshiftOdbc.Execute (ExecStatus SqlReturn)

/-! ## Cursors -/

def shortCmdLen : Nat := 1024

/-- `CURSOR_FETCH_ALL_CMD`, as far as the buffer holds it. -/
def fetchAllCommand (cursor : List Char) : List Char :=
  ("FETCH ALL FROM \"".toList ++ cursor ++ "\";".toList).take shortCmdLen

/-- `libpqGetData`: the value of a column in the current row, when there is one. -/
def libpqGetData (pResult : Result) (hCol : Nat) : Option (List Char) :=
  if pResult.iCurRow < 0 then none
  else
    match pResult.pgResult.tuples[pResult.iCurRow.toNat]? with
    | some row => row[hCol]?.join
    | none => none

/-- What the loop makes of a result, and the name of the cursor it fetches. -/
def Result.autoCursor (pResult : Result) : Result × Option (List Char) :=
  if pResult.iRefCursorInResult then
    let pResult := { pResult with iRefCursorInResult := false }
    if pResult.iCurRow ≥ -1 ∧ pResult.iCurRow ≤ pResult.iNumberOfRowsInMem - 1 then
      let pResult := { pResult with iCurRow := pResult.iCurRow + 1 }
      (pResult, libpqGetData pResult 0)
    else (pResult, none)
  else (pResult, none)

def Result.isCursor (pResult : Result) : Bool := pResult.autoCursor.2.isSome

/--
The server, with what it answers to the commands of an execution.  Every command
is answered, and a `FETCH` is answered with rows when it does not fail.
-/
structure Server (σ : Type) where
  answer : σ → List Char → List (List PgResult) × σ
  answered : ∀ state command, ∃ answers ∈ (answer state command).1, answers ≠ []
  rows : ∀ state cursor, ∀ answers ∈ (answer state (fetchAllCommand cursor)).1,
    ∀ pgResult ∈ answers, pgResult.pqRc ≠ .commandOk

/-! ## The walk through the list -/

/-- The variables of the loop; a place behind the list stands for a null pointer. -/
structure Walk (σ : Type) where
  server : σ
  list : StmtResults
  pPrevResult : Option Nat
  pResult : Nat

namespace Walk

variable {σ : Type} (settings : Settings) (server : Server σ)

/-- The list up to `pPrevResult`. -/
def cut (walk : Walk σ) : List Result :=
  match walk.pPrevResult with
  | none => []
  | some place => walk.list.results.take (place + 1)

/-- The result is released, its cursor is fetched, and the rest of the list is joined. -/
def fetchAll (walk : Walk σ) (cursor : List Char) : Walk σ :=
  let pSavNextResult := walk.list.results.drop (walk.pResult + 1)
  let answer := server.answer walk.server (fetchAllCommand cursor)
  let list := settings.execute ⟨.success, walk.cut⟩ answer.1
  { server := answer.2
    list := { list with results := list.results ++ pSavNextResult }
    pPrevResult := walk.pPrevResult
    pResult := list.results.length }

/-- The result is kept as it has become. -/
def keep (walk : Walk σ) (pResult : Result) : Walk σ :=
  { walk with
    list := { walk.list with results := walk.list.results.set walk.pResult pResult }
    pPrevResult := some walk.pResult
    pResult := walk.pResult + 1 }

/-- The number of results that the loop has not come to. -/
def left (walk : Walk σ) : Nat := walk.list.results.length - walk.pResult

theorem keep_left (walk : Walk σ) {result : Result} (pResult : Result)
    (here : walk.list.results[walk.pResult]? = some result) :
    (walk.keep pResult).left < walk.left := by
  obtain ⟨inside, -⟩ := List.getElem?_eq_some_iff.mp here
  simp only [left, keep, List.length_set]
  omega

theorem fetchAll_left (walk : Walk σ) {result : Result} (cursor : List Char)
    (here : walk.list.results[walk.pResult]? = some result) :
    (walk.fetchAll settings server cursor).left < walk.left := by
  obtain ⟨inside, -⟩ := List.getElem?_eq_some_iff.mp here
  simp only [left, fetchAll, List.length_append, List.length_drop]
  omega

/-- The loop of `checkAndAutoFetchRefCursor`. -/
def run (walk : Walk σ) : Walk σ :=
  match _ : walk.list.results[walk.pResult]? with
  | none => walk
  | some result =>
      match result.autoCursor with
      | (result, none) => run (walk.keep result)
      | (_, some cursor) =>
          if (walk.fetchAll settings server cursor).list.rc = .error then
            walk.fetchAll settings server cursor
          else run (walk.fetchAll settings server cursor)
termination_by walk.left
decreasing_by
  · exact keep_left walk _ ‹walk.list.results[walk.pResult]? = _›
  · exact fetchAll_left settings server walk _ ‹walk.list.results[walk.pResult]? = _›

end Walk

def checkAndAutoFetchRefCursor {σ : Type} (settings : Settings) (server : Server σ) (state : σ)
    (results : List Result) : StmtResults :=
  (Walk.run settings server ⟨state, ⟨.success, results⟩, none, 0⟩).list

/-! ## The list with its cursors expanded -/

section
variable {σ : Type} (settings : Settings) (server : Server σ)

/-- Every result that names a cursor is replaced by what the cursor fetches. -/
def expand : σ → List Result → List Result
  | _, [] => []
  | state, result :: rest =>
      match result.autoCursor with
      | (result, none) => result :: expand state rest
      | (_, some cursor) =>
          settings.fetched (server.answer state (fetchAllCommand cursor)).1 ++
            expand (server.answer state (fetchAllCommand cursor)).2 rest

/-- What the walk leaves behind the results it has kept, of which some were just fetched. -/
def walked : σ → List Result → List Result → List Result
  | _, joined, [] => joined
  | state, joined, result :: rest =>
      match result.autoCursor with
      | (result, none) => joined ++ result :: walked state [] rest
      | (_, some cursor) =>
          walked (server.answer state (fetchAllCommand cursor)).2
            (settings.fetched (server.answer state (fetchAllCommand cursor)).1) rest

end

/-! ## Where the walk stands -/

/-- The kept results end at `pPrevResult`, and the joined ones stand before `pResult`. -/
structure Walk.At {σ : Type} (walk : Walk σ) (kept joined rest : List Result) : Prop where
  split : walk.list.results = kept ++ joined ++ rest
  previous : (walk.pPrevResult = none ∧ kept = []) ∨
    ∃ place, walk.pPrevResult = some place ∧ kept.length = place + 1
  place : walk.pResult = (kept ++ joined).length

namespace Walk

variable {σ : Type} {settings : Settings} {server : Server σ} {walk : Walk σ}
  {kept joined rest : List Result} {result : Result}

theorem At.cut (placed : walk.At kept joined rest) : walk.cut = kept := by
  rw [Walk.cut]
  rcases placed.previous with ⟨none, empty⟩ | ⟨place, some, length⟩
  · rw [none, empty]
  · rw [some, placed.split, List.append_assoc]
    exact (congrArg (fun count => (kept ++ (joined ++ rest)).take count) length.symm).trans
      List.take_left

theorem At.here (placed : walk.At kept joined (result :: rest)) :
    walk.list.results[walk.pResult]? = some result := by
  rw [placed.split, placed.place, List.getElem?_append_right (Nat.le_refl _), Nat.sub_self]
  rfl

theorem At.behind (placed : walk.At kept joined []) : walk.list.results[walk.pResult]? = none := by
  rw [placed.split, placed.place, List.append_nil]
  exact List.getElem?_eq_none (Nat.le_refl _)

/-- A result that is kept takes the joined ones along. -/
theorem At.keep (placed : walk.At kept joined (result :: rest)) (changed : Result) :
    (walk.keep changed).At (kept ++ joined ++ [changed]) [] rest := by
  refine ⟨?_, .inr ⟨walk.pResult, rfl, ?_⟩, ?_⟩
  · simp only [Walk.keep, placed.split, placed.place, List.append_nil]
    rw [List.set_append_right _ _ (Nat.le_refl _), Nat.sub_self, List.set_cons_zero,
      List.append_assoc (kept ++ joined)]
    rfl
  · rw [List.length_append, placed.place, List.length_singleton]
  · simp only [Walk.keep, placed.place, List.append_nil, List.length_append, List.length_singleton]

/-- A cursor that is fetched replaces the joined results. -/
theorem At.fetchAll (placed : walk.At kept joined (result :: rest)) (cursor : List Char)
    (success : (walk.fetchAll settings server cursor).list.rc ≠ .error) :
    (walk.fetchAll settings server cursor).At kept
      (settings.fetched (server.answer walk.server (fetchAllCommand cursor)).1) rest := by
  have appended := Settings.execute_appends (server.rows walk.server cursor) success
  rw [placed.cut] at appended
  have saved : walk.list.results.drop (walk.pResult + 1) = rest := by
    rw [placed.split, placed.place, ← List.drop_drop, List.drop_left]
    rfl
  refine ⟨?_, placed.previous, ?_⟩
  · simp only [Walk.fetchAll, placed.cut, appended, saved]
  · simp only [Walk.fetchAll, placed.cut, appended]

theorem run_end (behind : walk.list.results[walk.pResult]? = none) :
    walk.run settings server = walk := by
  rw [Walk.run]
  split
  case h_1 => rfl
  case h_2 some =>
    rw [behind] at some
    simp only [reduceCtorEq] at some

theorem run_step (here : walk.list.results[walk.pResult]? = some result) :
    walk.run settings server =
      match result.autoCursor with
      | (result, none) => (walk.keep result).run settings server
      | (_, some cursor) =>
          if (walk.fetchAll settings server cursor).list.rc = .error then
            walk.fetchAll settings server cursor
          else (walk.fetchAll settings server cursor).run settings server := by
  rw [Walk.run]
  split
  case h_1 none =>
    rw [here] at none
    simp only [reduceCtorEq] at none
  case h_2 found same =>
    rw [here, Option.some.injEq] at same
    subst same
    rfl

/-- The walk from where it stands, when no cursor fails. -/
theorem At.run (placed : walk.At kept joined rest)
    (success : (walk.run settings server).list.rc ≠ .error) :
    (walk.run settings server).list.results =
      kept ++ walked settings server walk.server joined rest := by
  induction rest generalizing walk kept joined with
  | nil => rw [run_end placed.behind, placed.split, List.append_nil, walked]
  | cons result rest ih =>
      rw [run_step placed.here] at success ⊢
      rw [walked]
      cases visited : result.autoCursor with
      | mk changed cursor =>
          rw [visited] at success
          cases cursor with
          | none =>
              rw [ih (placed.keep changed) success]
              simp only [List.append_assoc, List.singleton_append]
              rfl
          | some cursor =>
              by_cases failed : (walk.fetchAll settings server cursor).list.rc = .error
              · simp only [if_pos failed] at success
                exact absurd failed success
              · simp only [if_neg failed] at success ⊢
                exact ih (placed.fetchAll cursor failed) success

end Walk

/-! ## Nothing lost -/

section
variable {σ : Type} (settings : Settings) (server : Server σ)

/-- An execution that is answered leaves at least one result. -/
theorem fetched_ne_nil (state : σ) (command : List Char) :
    settings.fetched (server.answer state command).1 ≠ [] := by
  obtain ⟨answers, member, some⟩ := server.answered state command
  intro none
  rw [Settings.fetched, List.flatMap_eq_nil_iff] at none
  obtain ⟨first, rest, rfl⟩ := List.exists_cons_of_ne_nil some
  have read := none _ member
  rw [Settings.answersRead] at read
  split at read <;> exact absurd read (List.cons_ne_nil _ _)

/-- Neighbours that both name a cursor. -/
def Apart (first second : Result) : Prop := ¬ (first.isCursor = true ∧ second.isCursor = true)

instance : DecidableRel Apart := fun _ _ => inferInstanceAs (Decidable (¬ _))

theorem isCursor_eq {result changed : Result} {cursor : Option (List Char)}
    (visited : result.autoCursor = (changed, cursor)) : result.isCursor = cursor.isSome := by
  rw [Result.isCursor, visited]

/-- The walk never leaves more than the expansion, and less when it has to replace joined results. -/
theorem walked_length_le (state : σ) (joined rest : List Result) :
    (walked settings server state joined rest).length ≤
      (joined ++ expand settings server state rest).length := by
  induction rest generalizing state joined with
  | nil => rw [walked, expand, List.append_nil]
  | cons result rest ih =>
      rw [walked, expand]
      cases visited : result.autoCursor with
      | mk changed cursor =>
          cases cursor with
          | none =>
              have later := ih state []
              simp only [List.length_append, List.length_cons, List.length_nil] at later ⊢
              omega
          | some cursor =>
              have later := ih (server.answer state (fetchAllCommand cursor)).2
                (settings.fetched (server.answer state (fetchAllCommand cursor)).1)
              simp only [List.length_append] at later ⊢
              omega

/-- The walk is the expansion exactly when no joined results stand before a cursor. -/
theorem walked_eq_iff (state : σ) (joined rest : List Result) :
    walked settings server state joined rest = joined ++ expand settings server state rest ↔
      (joined ≠ [] → ∀ result ∈ rest.head?, result.isCursor = false) ∧ rest.IsChain Apart := by
  induction rest generalizing state joined with
  | nil =>
      rw [walked, expand, List.append_nil]
      exact iff_of_true rfl ⟨fun _ _ member => absurd member (Option.not_mem_none _), .nil⟩
  | cons result rest ih =>
      rw [walked, expand, List.isChain_cons]
      cases visited : result.autoCursor with
      | mk changed cursor =>
          have names := isCursor_eq visited
          cases cursor with
          | none =>
              have later := ih state []
              have plain : result.isCursor = false := names
              rw [List.nil_append] at later
              simp only [List.append_cancel_left_eq, List.cons.injEq, true_and, later, ne_eq,
                not_true_eq_false, false_implies]
              refine ⟨fun chain => ⟨?_, ?_, chain⟩, fun both => both.2.2⟩
              · rintro - other member
                obtain rfl := Option.some.inj member
                exact plain
              · rintro other - ⟨first, -⟩
                exact absurd first (by rw [plain]; exact Bool.false_ne_true)
          | some cursor =>
              have cursors : result.isCursor = true := names
              have later := ih (server.answer state (fetchAllCommand cursor)).2
                (settings.fetched (server.answer state (fetchAllCommand cursor)).1)
              have fetched := fetched_ne_nil settings server state
                (fetchAllCommand cursor)
              by_cases none : joined = []
              · subst none
                simp only [List.nil_append, later, fetched, ne_eq, not_false_eq_true,
                  true_implies, not_true_eq_false, false_implies, true_and]
                refine and_congr_left fun _ => forall₂_congr fun other _ => ?_
                rw [Apart, cursors, Bool.eq_false_iff]
                simp only [true_and, ne_eq]
              · refine iff_of_false ?_ fun both => ?_
                · intro same
                  have lengths := congrArg List.length same
                  have shorter := walked_length_le settings server
                    (server.answer state (fetchAllCommand cursor)).2
                    (settings.fetched (server.answer state (fetchAllCommand cursor)).1) rest
                  have some := List.length_pos_iff.mpr none
                  simp only [List.length_append] at lengths shorter
                  omega
                · have plain := both.1 none result rfl
                  exact absurd cursors (by rw [plain]; exact Bool.false_ne_true)

/-- The list after a walk in which no cursor has failed. -/
theorem checkAndAutoFetchRefCursor_results (state : σ) (results : List Result)
    (success : (checkAndAutoFetchRefCursor settings server state results).rc ≠ .error) :
    (checkAndAutoFetchRefCursor settings server state results).results =
      walked settings server state [] results :=
  Walk.At.run ⟨rfl, .inl ⟨rfl, rfl⟩, rfl⟩ success

theorem checkAndAutoFetchRefCursor_expands (state : σ) (results : List Result)
    (success : (checkAndAutoFetchRefCursor settings server state results).rc ≠ .error) :
    (checkAndAutoFetchRefCursor settings server state results).results =
        expand settings server state results ↔
      results.IsChain Apart := by
  have whole := walked_eq_iff settings server state [] results
  rw [List.nil_append] at whole
  rw [checkAndAutoFetchRefCursor_results settings server state results success, whole]
  exact ⟨fun both => both.2, fun chain => ⟨fun none => absurd rfl none, chain⟩⟩

end

/-! ## Lists with cursors -/

/-- An answer of a server with one row of one column. -/
def oneValue (oid : Nat) (value : List Char) : PgResult :=
  { pqRc := .tuplesOk, cmdStatus := [], ftypes := [oid], tuples := [[some value]],
    connectionBad := false, cscThreadCreated := false }

/-- A server that answers every command with a row that has the command in it. -/
def echo : Server Unit where
  answer _ command := ([[oneValue 1043 command]], ())
  answered _ _ := ⟨_, List.mem_singleton_self _, List.cons_ne_nil _ _⟩
  rows := by
    intro _ cursor answers member pgResult inside
    obtain rfl := List.mem_singleton.mp member
    obtain rfl := List.mem_singleton.mp inside
    simp only [oneValue, ne_eq, reduceCtorEq, not_false_eq_true]

def callSettings : Settings :=
  { model := .lp64, iFetchRefCursor := true, iArrayBinding := false, streamingCursor := false }

/-- A cursor, a plain result and another cursor. -/
def separated : List Result :=
  [oneValue 1790 ['a'], oneValue 23 ['1'], oneValue 1790 ['b']].map callSettings.node

def adjacent : List Result := [oneValue 1790 ['a'], oneValue 1790 ['b']].map callSettings.node

unseal Walk.run in
theorem checkAndAutoFetchRefCursor_expands_separated :
    (checkAndAutoFetchRefCursor callSettings echo () separated).results =
      expand callSettings echo () separated :=
  (checkAndAutoFetchRefCursor_expands callSettings echo () separated (by decide)).mpr (by decide)

unseal Walk.run in
/-- What the first of two adjacent cursors has fetched is lost. -/
theorem checkAndAutoFetchRefCursor_expands_wrong :
    (checkAndAutoFetchRefCursor callSettings echo () adjacent).rc = .success ∧
      (checkAndAutoFetchRefCursor callSettings echo () adjacent).results ≠
        expand callSettings echo () adjacent := by
  decide

end RedshiftOdbc.ResultList
