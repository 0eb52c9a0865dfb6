import Mathlib.Data.List.Induction

/-!
# Systems that take steps

A `System` has start states and labelled steps.  `Reachable` states are those that some run ends in;
`Leads` relates a state to the states later in a run.

* `System.Reachable.invariant` : what holds at the start and is kept by every step holds always.
* `System.Reachable.leads` : a run goes on from a reachable state to reachable states.
* `exists_flip` : what holds after a list of events and did not hold before was made true by one of
  them.
* `mem_collected` : what a run collects was added by one of its events.
* `foldl_guarded` : what every event that is allowed keeps holds after a run of such events.
* `outcomes_eq` : two machines that stay related as long as they answer give the same answers up to
  the first failure.
* `Answers.simulates` : what a machine answers, one that simulates it answers too.
* `Answers.refines`, `Answers.refined` : a machine that stands for another one, but may not always
  answer, gives the answers of the other one where it may.
-/

namespace Latticed

/-- A transition system with states `S` and labels `L`. -/
structure System (S L : Type*) where
  /-- The states a run may start in. -/
  start : S → Prop
  /-- `step s l s'` : in `s` the system may do `l` and be in `s'`. -/
  step : S → L → S → Prop

namespace System

variable {S L : Type*} {M : System S L}

/-- The states in which a run can end. -/
inductive Reachable (M : System S L) : S → Prop
  | start {s : S} : M.start s → Reachable M s
  | step {s s' : S} {l : L} : Reachable M s → M.step s l s' → Reachable M s'

/-- Zero or more steps. -/
inductive Leads (M : System S L) : S → S → Prop
  | refl (s : S) : Leads M s s
  | step {s s' s'' : S} {l : L} : Leads M s s' → M.step s' l s'' → Leads M s s''

/-- **The invariant rule.** -/
theorem Reachable.invariant {I : S → Prop} (hstart : ∀ s, M.start s → I s)
    (hstep : ∀ s l s', I s → M.step s l s' → I s') {s : S} (h : M.Reachable s) : I s := by
  induction h with
  | start h => exact hstart _ h
  | step _ hs ih => exact hstep _ _ _ ih hs

theorem Leads.single {s s' : S} {l : L} (h : M.step s l s') : M.Leads s s' :=
  (Leads.refl s).step h

theorem Leads.trans {s s' s'' : S} (h : M.Leads s s') (h' : M.Leads s' s'') : M.Leads s s'' := by
  induction h' with
  | refl => exact h
  | step _ hs ih => exact ih.step hs

theorem Reachable.leads {s s' : S} (h : M.Reachable s) (h' : M.Leads s s') : M.Reachable s' := by
  induction h' with
  | refl => exact h
  | step _ hs ih => exact ih.step hs

end System

/-! ### Runs of a function -/

/-- What holds after a list of events and did not hold before was made true by one of them. -/
theorem exists_flip {S E : Type*} {step : S → E → S} {P : S → Prop} {s : S} {events : List E}
    (hnot : ¬ P s) (h : P (events.foldl step s)) :
    ∃ before e after, events = before ++ e :: after ∧ ¬ P (before.foldl step s) ∧
      P ((before ++ [e]).foldl step s) := by
  induction events using List.reverseRecOn with
  | nil => exact absurd h hnot
  | append_singleton events e ih =>
    by_cases hbefore : P (events.foldl step s)
    · obtain ⟨before, e', after, rfl, h₁, h₂⟩ := ih hbefore
      exact ⟨before, e', after ++ [e], by simp, h₁, h₂⟩
    · exact ⟨events, e, [], rfl, hbefore, h⟩

/-- What events never undo holds after more of them. -/
theorem foldl_mono {S E : Type*} {step : S → E → S} {P : S → Prop}
    (hstep : ∀ s e, P s → P (step s e)) (events : List E) {s : S} (h : P s) :
    P (events.foldl step s) := by
  induction events generalizing s with
  | nil => exact h
  | cons e events ih => exact ih (hstep s e h)

/-- **What a run collects** was added by one of its events. -/
theorem mem_collected {S E A : Type*} {step : S → E → S} {collected : S → List A}
    {added : S → E → List A} (hstep : ∀ s e, collected (step s e) = collected s ++ added s e) (s : S)
    (events : List E) (a : A) :
    a ∈ collected (events.foldl step s) ↔ a ∈ collected s ∨ ∃ before e after,
      events = before ++ e :: after ∧ a ∈ added (before.foldl step s) e := by
  induction events generalizing s with
  | nil => simp
  | cons e events ih =>
    rw [List.foldl_cons, ih, hstep, List.mem_append, or_assoc]
    refine or_congr_right ⟨?_, ?_⟩
    · rintro (hnew | ⟨before, e', after, rfl, hlater⟩)
      · exact ⟨[], e, events, rfl, hnew⟩
      · exact ⟨e :: before, e', after, rfl, hlater⟩
    · rintro ⟨before, e', after, heq, hadded⟩
      cases before with
      | nil =>
        obtain ⟨rfl, rfl⟩ := List.cons.inj heq
        exact .inl hadded
      | cons e'' before =>
        obtain ⟨rfl, rfl⟩ := List.cons.inj heq
        exact .inr ⟨before, e', after, rfl, hadded⟩

/-- **Guarded events.** What an event keeps in the states in which it is allowed holds after every run
of events that are allowed. -/
theorem foldl_guarded {S E : Type*} {step : S → E → S} {P : S → Prop} {G : S → E → Prop}
    (hstep : ∀ s e, G s e → P s → P (step s e)) {s : S} (h : P s) {events : List E}
    (hgood : ∀ before e after, events = before ++ e :: after → G (before.foldl step s) e) :
    P (events.foldl step s) := by
  induction events using List.reverseRecOn with
  | nil => exact h
  | append_singleton events e ih =>
    have hbefore := ih fun before e' after heq => hgood before e' (after ++ [e]) (by simp [heq])
    rw [List.foldl_append]
    exact hstep _ e (hgood events e [] rfl) hbefore

/-- The first event of a run, and the others. -/
theorem guarded_cons {S E : Type*} {step : S → E → S} {Good : S → E → Prop} {s : S} {e : E}
    {events : List E} (hfirst : Good s e) (hrest : ∀ before e' after,
      events = before ++ e' :: after → Good (before.foldl step (step s e)) e') :
    ∀ before e' after, e :: events = before ++ e' :: after → Good (before.foldl step s) e' := by
  intro before e' after heq
  cases before with
  | nil =>
    obtain ⟨rfl, -⟩ := List.cons.inj heq
    exact hfirst
  | cons e'' before =>
    obtain ⟨rfl, htail⟩ := List.cons.inj heq
    exact hrest before e' after htail

theorem guarded_nil {S E : Type*} {step : S → E → S} {Good : S → E → Prop} {s : S} :
    ∀ before e' after, ([] : List E) = before ++ e' :: after → Good (before.foldl step s) e' := by
  intro before e' after heq
  cases before <;> cases heq

/-- Of a run of one event, that event is the only one. -/
theorem eq_of_singleton {E : Type*} {e e' : E} {before after : List E}
    (h : [e] = before ++ e' :: after) : before = [] ∧ e = e' := by
  cases before with
  | nil => exact ⟨rfl, (List.cons.inj h).1⟩
  | cons e'' before => simp at h

/-- The answers of a machine to a list of calls, up to and including the first that fails. -/
def outcomes {S A B : Type*} (step : S → A → Option B × S) : S → List A → List (Option B)
  | _, [] => []
  | s, a :: calls =>
    match step s a with
    | (none, _) => [none]
    | (some b, s') => some b :: outcomes step s' calls

/-- What every answer satisfies, in the states a machine comes to. -/
theorem outcomes_forall {S A B : Type*} {step : S → A → Option B × S} {I : S → Prop} {Q : B → Prop}
    (hstep : ∀ s a b, I s → (step s a).1 = some b → Q b ∧ I (step s a).2) {s : S} (h : I s)
    {calls : List A} {b : B} (hb : some b ∈ outcomes step s calls) : Q b := by
  induction calls generalizing s with
  | nil => cases hb
  | cons a calls ih =>
    have hs := hstep s a
    rw [outcomes] at hb
    rcases hcall : step s a with ⟨_ | b', s'⟩
    · rw [hcall] at hb
      simp at hb
    · rw [hcall] at hb hs
      obtain ⟨hq, hnext⟩ := hs b' h rfl
      rcases List.mem_cons.1 hb with heq | hmem
      · exact Option.some.inj heq ▸ hq
      · exact ih hnext hmem

/-- **Lockstep.** Machines that answer alike in related states, and are related again after an answer,
give the same answers up to the first failure. -/
theorem outcomes_eq {S S' A B : Type*} {step : S → A → Option B × S}
    {step' : S' → A → Option B × S'} {R : S → S' → Prop}
    (hanswer : ∀ s t a, R s t → (step s a).1 = (step' t a).1)
    (hnext : ∀ s t a b, R s t → (step s a).1 = some b → R (step s a).2 (step' t a).2)
    {s : S} {t : S'} (h : R s t) (calls : List A) :
    outcomes step s calls = outcomes step' t calls := by
  induction calls generalizing s t with
  | nil => rfl
  | cons a calls ih =>
    have hsame := hanswer s t a h
    have hrel := hnext s t a
    rw [outcomes, outcomes]
    rcases hs : step s a with ⟨answer, s'⟩
    rcases ht : step' t a with ⟨answer', t'⟩
    rw [hs, ht] at hsame hrel
    obtain rfl : answer = answer' := hsame
    cases answer with
    | none => rfl
    | some b => exact congrArg (some b :: ·) (ih (hrel b h rfl))

/-- The machine answers all the calls, with these answers, and ends in this state. -/
def Answers {S A B : Type*} (step : S → A → Option B × S) : S → List A → List B → S → Prop
  | s, [], [], t => s = t
  | s, a :: calls, b :: answers, t =>
    (step s a).1 = some b ∧ Answers step (step s a).2 calls answers t
  | _, _, _, _ => False

/-- **Simulation.** What a machine answers, a machine that simulates it answers. -/
theorem Answers.simulates {S S' A B : Type*} {step : S → A → Option B × S}
    {step' : S' → A → Option B × S'} {R : S → S' → Prop}
    (hstep : ∀ s s' a b, R s s' → (step s a).1 = some b →
      (step' s' a).1 = some b ∧ R (step s a).2 (step' s' a).2)
    {s t : S} {s' : S'} (h : R s s') {calls : List A} {answers : List B}
    (hs : Answers step s calls answers t) :
    ∃ t', Answers step' s' calls answers t' ∧ R t t' := by
  induction calls generalizing s s' answers with
  | nil =>
    cases answers with
    | nil =>
      obtain rfl : s = t := hs
      exact ⟨s', rfl, h⟩
    | cons b answers => exact hs.elim
  | cons a calls ih =>
    cases answers with
    | nil => exact hs.elim
    | cons b answers =>
      obtain ⟨hb, hrest⟩ := hs
      obtain ⟨hb', hR⟩ := hstep s s' a b h hb
      obtain ⟨t', ht', hRt⟩ := ih hR hrest
      exact ⟨t', ⟨hb', ht'⟩, hRt⟩

/-- Each of the calls is made in a state that `May` make it. -/
def Along {S A B : Type*} (step : S → A → Option B × S) (May : S → A → Prop) : S → List A → Prop
  | _, [] => True
  | s, a :: calls => May s a ∧ Along step May (step s a).2 calls

section

variable {S S' A B : Type*} {step : S → A → Option B × S} {step' : S' → A → Option B × S'}
  {bare : S' → S} {Ready : S' → Prop} {May : S → A → Prop}

/-- **Refinement.** What a machine answers that stands for another one, the other one answers, in states
in which the first may. -/
theorem Answers.refines
    (hanswer : ∀ s a b, Ready s → (step' s a).1 = some b → (step (bare s) a).1 = some b ∧ May (bare s) a)
    (hkeep : ∀ s a b, Ready s → (step' s a).1 = some b →
      Ready (step' s a).2 ∧ bare (step' s a).2 = (step (bare s) a).2)
    {s t : S'} (h : Ready s) {calls : List A} {answers : List B} (hs : Answers step' s calls answers t) :
    Ready t ∧ Answers step (bare s) calls answers (bare t) ∧ Along step May (bare s) calls := by
  induction calls generalizing s answers with
  | nil =>
    cases answers with
    | nil =>
      obtain rfl : s = t := hs
      exact ⟨h, rfl, trivial⟩
    | cons b answers => exact hs.elim
  | cons a calls ih =>
    cases answers with
    | nil => exact hs.elim
    | cons b answers =>
      obtain ⟨hb, hrest⟩ := hs
      obtain ⟨hb', hmay⟩ := hanswer s a b h hb
      obtain ⟨hready, hstate⟩ := hkeep s a b h hb
      obtain ⟨ht, hanswers, halong⟩ := ih hready hrest
      rw [hstate] at hanswers halong
      exact ⟨ht, ⟨hb', hanswers⟩, hmay, halong⟩

/-- What the other one answers, in states in which it may, the first answers too. -/
theorem Answers.refined
    (hanswer : ∀ s a b, Ready s → (step (bare s) a).1 = some b → May (bare s) a →
      (step' s a).1 = some b)
    (hkeep : ∀ s a b, Ready s → (step' s a).1 = some b →
      Ready (step' s a).2 ∧ bare (step' s a).2 = (step (bare s) a).2)
    {s : S'} {t : S} (h : Ready s) {calls : List A} {answers : List B}
    (hs : Answers step (bare s) calls answers t) (halong : Along step May (bare s) calls) :
    ∃ t', Answers step' s calls answers t' ∧ Ready t' ∧ bare t' = t := by
  induction calls generalizing s answers with
  | nil =>
    cases answers with
    | nil => exact ⟨s, rfl, h, hs⟩
    | cons b answers => exact hs.elim
  | cons a calls ih =>
    cases answers with
    | nil => exact hs.elim
    | cons b answers =>
      obtain ⟨hb, hrest⟩ := hs
      have hb' := hanswer s a b h hb halong.1
      obtain ⟨hready, hstate⟩ := hkeep s a b h hb'
      rw [← hstate] at hrest
      obtain ⟨t', ht', hend⟩ := ih hready hrest (hstate ▸ halong.2)
      exact ⟨t', ⟨hb', ht'⟩, hend⟩

end

/-- The two parties of a system with two parties. -/
inductive Side where
  | a
  | b
  deriving DecidableEq, Repr

/-- The other party. -/
def Side.other : Side → Side
  | a => b
  | b => a

/-- One value for each party. -/
def Side.pick {α : Type*} (x y : α) : Side → α
  | a => x
  | b => y

@[simp] theorem Side.other_other (s : Side) : s.other.other = s := by cases s <;> rfl
@[simp] theorem Side.other_ne (s : Side) : s.other ≠ s := by cases s <;> decide
@[simp] theorem Side.ne_other (s : Side) : s ≠ s.other := by cases s <;> decide

theorem Side.eq_or_eq_other (s t : Side) : s = t ∨ s = t.other := by
  cases s <;> cases t <;> decide

end Latticed
