import Mathlib.Tactic.Common

/-!
# Runs of a state machine

A machine is a partial step function.  `visited` lists the states a run goes
through and `Guarded` says that every step the run takes meets a guard.  An
invariant that every guarded step keeps holds in every state of a guarded run;
when an unguarded step always breaks a property, the property holds along a run
exactly when the run is guarded.
-/

namespace RedshiftOdbc.Machine

variable {State Event : Type*} (step : State → Event → Option State)

/-- The states of a run.  An event that is not possible ends it. -/
def visited : State → List Event → List State
  | state, [] => [state]
  | state, event :: rest =>
      state :: match step state event with
        | none => []
        | some next => visited next rest

/-- Every step the run takes meets the guard. -/
def Guarded (guard : State → Event → Prop) : State → List Event → Prop
  | _, [] => True
  | state, event :: rest =>
      match step state event with
      | none => True
      | some next => guard state event ∧ Guarded guard next rest

/-- The run meets the guard at every event up to one that is not possible, and there too. -/
def AlwaysGuarded (guard : State → Event → Prop) : State → List Event → Prop
  | _, [] => True
  | state, event :: rest =>
      guard state event ∧
        match step state event with
        | none => True
        | some next => AlwaysGuarded guard next rest

variable {step} {guard : State → Event → Prop} {shape safe property : State → Prop}

instance decidableGuarded [∀ state event, Decidable (guard state event)] :
    (start : State) → (events : List Event) → Decidable (Guarded step guard start events)
  | _, [] => isTrue trivial
  | state, event :: rest =>
      match move : step state event with
      | none => isTrue (by simp [Guarded, move])
      | some next =>
          have := decidableGuarded next rest
          decidable_of_iff (guard state event ∧ Guarded step guard next rest)
            (by simp [Guarded, move])

theorem mem_visited_start (state : State) (events : List Event) :
    state ∈ visited step state events := by
  cases events <;> simp [visited]

/-- An invariant of every guarded step is an invariant of every guarded run. -/
theorem visited_safe (safe : State → Prop)
    (preserves : ∀ state event next, safe state → guard state event →
      step state event = some next → safe next)
    {start : State} (initial : safe start) {events : List Event}
    (guarded : Guarded step guard start events) :
    ∀ state ∈ visited step start events, safe state := by
  induction events generalizing start with
  | nil => simpa [visited] using initial
  | cons event rest ih =>
      intro state member
      rw [visited] at member
      rw [Guarded] at guarded
      cases move : step start event with
      | none =>
          rw [move] at member
          simp only [List.mem_singleton] at member
          exact member ▸ initial
      | some next =>
          rw [move] at member guarded
          rcases List.mem_cons.mp member with here | later
          · exact here ▸ initial
          · exact ih (preserves start event next initial guarded.1 move) guarded.2 state later

/-- A run that stays inside a property takes no step that leaves it. -/
theorem guarded_of_visited
    (keeps : ∀ state event next, shape state → step state event = some next → shape next)
    (exact : ∀ state event next, shape state → ¬ guard state event →
      step state event = some next → ¬ property next)
    {start : State} (initial : shape start) {events : List Event}
    (inside : ∀ state ∈ visited step start events, property state) :
    Guarded step guard start events := by
  induction events generalizing start with
  | nil => trivial
  | cons event rest ih =>
      rw [Guarded]
      cases move : step start event with
      | none => trivial
      | some next =>
          have later : ∀ state ∈ visited step next rest, property state := by
            intro state member
            refine inside state ?_
            rw [visited, move]
            exact List.mem_cons_of_mem _ member
          refine ⟨?_, ih (keeps start event next initial move) later⟩
          by_contra open_guard
          exact exact start event next initial open_guard move
            (later next (mem_visited_start next rest))

/-- When exactly the guarded steps keep a property, it holds along exactly the guarded runs. -/
theorem visited_iff_guarded
    (keeps : ∀ state event next, shape state → step state event = some next → shape next)
    (exact : ∀ state event next, shape state → property state →
      step state event = some next → (property next ↔ guard state event))
    {start : State} (initial : shape start) (holds : property start) (events : List Event) :
    (∀ state ∈ visited step start events, property state) ↔ Guarded step guard start events := by
  induction events generalizing start with
  | nil => simpa [visited, Guarded] using holds
  | cons event rest ih =>
      rw [visited, Guarded]
      cases move : step start event with
      | none => simpa using holds
      | some next =>
          have one := exact start event next initial holds move
          have shaped := keeps start event next initial move
          dsimp only
          rw [List.forall_mem_cons, and_iff_right holds]
          constructor
          · intro every
            have here := every next (mem_visited_start next rest)
            exact ⟨one.mp here, (ih shaped here).mp every⟩
          · rintro ⟨first, later⟩
            exact (ih shaped (one.mpr first)).mpr later

theorem Guarded.mono {stronger : State → Event → Prop}
    (implies : ∀ state event, stronger state event → guard state event)
    {start : State} {events : List Event} (guarded : Guarded step stronger start events) :
    Guarded step guard start events := by
  induction events generalizing start with
  | nil => trivial
  | cons event rest ih =>
      rw [Guarded] at guarded ⊢
      cases move : step start event with
      | none => trivial
      | some next =>
          rw [move] at guarded
          exact ⟨implies start event guarded.1, ih guarded.2⟩

theorem AlwaysGuarded.cons {state next : State} {event : Event} {rest : List Event}
    (met : guard state event) (move : step state event = some next)
    (later : AlwaysGuarded step guard next rest) :
    AlwaysGuarded step guard state (event :: rest) := by
  rw [AlwaysGuarded, move]
  exact ⟨met, later⟩

theorem AlwaysGuarded.of_forall {special : Event → Prop} {start : State} {events : List Event}
    (every : ∀ event ∈ events, special event) (guarded : AlwaysGuarded step guard start events) :
    AlwaysGuarded step (fun state event => special event ∧ guard state event) start events := by
  induction events generalizing start with
  | nil => trivial
  | cons event rest ih =>
      obtain ⟨first, later⟩ := List.forall_mem_cons.mp every
      rw [AlwaysGuarded] at guarded ⊢
      refine ⟨⟨first, guarded.1⟩, ?_⟩
      cases move : step start event with
      | none => trivial
      | some next =>
          rw [move] at guarded
          exact ih later guarded.2

/-- A run keeps the shape, and what is observed behind it is what its last event set. -/
theorem observed_latest {Query Value : Type*} {observe : State → Query → Value}
    {sets : Event → Query → Option Value}
    (goes : ∀ state event, shape state → guard state event →
      ∃ next, step state event = some next ∧ shape next ∧
        ∀ query, observe next query = (sets event query).getD (observe state query))
    {start : State} (initial : shape start) {events : List Event}
    (guarded : AlwaysGuarded step guard start events) :
    ∃ last, events.foldlM step start = some last ∧ shape last ∧
      ∀ query, observe last query =
        (events.reverse.findSome? fun event => sets event query).getD (observe start query) := by
  induction events generalizing start with
  | nil => exact ⟨start, rfl, initial, fun _ => rfl⟩
  | cons event rest ih =>
      rw [AlwaysGuarded] at guarded
      obtain ⟨next, move, shaped, first⟩ := goes start event initial guarded.1
      rw [move] at guarded
      obtain ⟨last, run, stays, later⟩ := ih shaped guarded.2
      refine ⟨last, by rw [List.foldlM_cons, move]; exact run, stays, fun query => ?_⟩
      rw [later, first, List.reverse_cons, List.findSome?_append]
      cases rest.reverse.findSome? fun event => sets event query with
      | some value => rfl
      | none =>
          rw [Option.getD_none, Option.none_or, List.findSome?_cons]
          cases sets event query <;> rfl

/-! ## Answers -/

section

variable {Answer Concrete Abstract : Type*}

/-- What a machine answers to a sequence of events, and the state behind them. -/
def replies (call : State → Event → Answer × State) : State → List Event → List Answer × State
  | state, [] => ([], state)
  | state, event :: rest =>
      let (answer, next) := call state event
      let (answers, last) := replies call next rest
      (answer :: answers, last)

/-- A view that every call respects is respected along every sequence of calls. -/
theorem replies_simulated {call : Concrete → Event → Answer × Concrete}
    {specified : Abstract → Event → Answer × Abstract} (view : Concrete → Abstract)
    (shape : Concrete → Prop) (keeps : ∀ state event, shape state → shape (call state event).2)
    (respects : ∀ state event, shape state →
      specified (view state) event = ((call state event).1, view (call state event).2))
    {start : Concrete} (initial : shape start) (events : List Event) :
    shape (replies call start events).2 ∧
      replies specified (view start) events =
        ((replies call start events).1, view (replies call start events).2) := by
  induction events generalizing start with
  | nil => exact ⟨initial, rfl⟩
  | cons event rest ih =>
      obtain ⟨shaped, same⟩ := ih (keeps start event initial)
      refine ⟨shaped, ?_⟩
      rw [replies, respects start event initial]
      dsimp only
      rw [same]
      rfl

/-- A machine that does what is specified at every guarded event does so along a guarded run. -/
theorem replies_guarded {call : Concrete → Event → Answer × Concrete}
    {specified : Abstract → Event → Answer × Abstract} {guard : Abstract → Event → Prop}
    (shows : Concrete → Abstract → Prop)
    (respects : ∀ concrete abstract event, shows concrete abstract → guard abstract event →
      (call concrete event).1 = (specified abstract event).1 ∧
        shows (call concrete event).2 (specified abstract event).2)
    {concrete : Concrete} {abstract : Abstract} (initial : shows concrete abstract)
    {events : List Event}
    (guarded : Guarded (fun state event => some (specified state event).2) guard abstract events) :
    (replies call concrete events).1 = (replies specified abstract events).1 := by
  induction events generalizing concrete abstract with
  | nil => rfl
  | cons event rest ih =>
      rw [Guarded] at guarded
      obtain ⟨answer, shown⟩ := respects concrete abstract event initial guarded.1
      rw [replies, replies]
      exact congrArg₂ List.cons answer (ih shown guarded.2)

end

end RedshiftOdbc.Machine
