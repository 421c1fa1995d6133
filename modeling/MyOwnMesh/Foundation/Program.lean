import Mathlib.Algebra.Order.Ring.Nat
import Mathlib.Logic.Basic

/-!
# Stateful programs that may fail

`Prog σ ε α` is a program over a state that may stop with an error and keeps the
state it has reached, as a method on a mutable receiver does. `exec` runs one;
the `exec` lemmas unfold one constructor each.

`Triple P m Q E` says that from every state in `P` the program ends either with
a value and a state in `Q`, or with an error and a state in `E`. The rules
below compose triples along binds, handlers and loops, so that a property of a
long program is assembled from those of its parts.
-/

namespace MyOwnMesh.Foundation

/-- A program over `σ` that may fail with `ε`. -/
abbrev Prog (σ ε α : Type) := ExceptT ε (StateM σ) α

section Program

variable {σ ε α β : Type}

/-- Run a program: its result and the state it leaves. -/
def exec (m : Prog σ ε α) (s : σ) : Except ε α × σ := m.run.run s

@[simp] theorem exec_pure (a : α) (s : σ) : exec (pure a : Prog σ ε α) s = (.ok a, s) := rfl

@[simp] theorem exec_throw (e : ε) (s : σ) :
    exec (throw e : Prog σ ε α) s = (.error e, s) := rfl

@[simp] theorem exec_get (s : σ) : exec (get : Prog σ ε σ) s = (.ok s, s) := rfl

@[simp] theorem exec_set (t s : σ) : exec (set t : Prog σ ε PUnit) s = (.ok ⟨⟩, t) := rfl

@[simp] theorem exec_modify (f : σ → σ) (s : σ) :
    exec (modify f : Prog σ ε PUnit) s = (.ok ⟨⟩, f s) := rfl

/-- A pure result, as a program. -/
@[simp] theorem exec_mk_pure (r : Except ε α) (s : σ) :
    exec (ExceptT.mk (pure r) : Prog σ ε α) s = (r, s) := rfl

theorem exec_bind (m : Prog σ ε α) (f : α → Prog σ ε β) (s : σ) :
    exec (m >>= f) s =
      match exec m s with
      | (.ok a, t) => exec (f a) t
      | (.error e, t) => (.error e, t) := by
  simp only [exec, ExceptT.run_bind, StateT.run_bind]
  cases h : m.run.run s with
  | mk r t => cases r <;> rfl

theorem exec_map (f : α → β) (m : Prog σ ε α) (s : σ) :
    exec (f <$> m) s = ((exec m s).1.map f, (exec m s).2) := by
  rw [map_eq_pure_bind, exec_bind]
  cases h : exec m s with
  | mk r t => cases r <;> rfl

theorem exec_tryCatch (m : Prog σ ε α) (handler : ε → Prog σ ε α) (s : σ) :
    exec (tryCatch m handler) s =
      match exec m s with
      | (.ok a, t) => (.ok a, t)
      | (.error e, t) => exec (handler e) t := by
  change (StateT.run (m.run >>= fun r => match r with
    | .ok a => pure (.ok a)
    | .error e => (handler e).run) s) = _
  rw [StateT.run_bind]
  cases h : m.run.run s with
  | mk r t =>
    have hExec : exec m s = (r, t) := h
    rw [hExec]
    cases r <;> rfl

/-- What a run ended with: a value and state in `Q`, or an error and state in `E`. -/
def Meets (Q : α → σ → Prop) (E : ε → σ → Prop) : Except ε α × σ → Prop
  | (.ok a, t) => Q a t
  | (.error e, t) => E e t

/-- From every state in `P` the program meets `Q` or fails within `E`. -/
def Triple (P : σ → Prop) (m : Prog σ ε α) (Q : α → σ → Prop) (E : ε → σ → Prop) : Prop :=
  ∀ s, P s → Meets Q E (exec m s)

variable {P P' : σ → Prop} {Q Q' : α → σ → Prop} {E E' : ε → σ → Prop}

variable {m : Prog σ ε α}

theorem Triple.weaken (h : Triple P m Q E) (hP : ∀ s, P' s → P s) (hQ : ∀ a s, Q a s → Q' a s)
    (hE : ∀ e s, E e s → E' e s) : Triple P' m Q' E' := by
  intro s hs
  have hMeets := h s (hP s hs)
  revert hMeets
  cases exec m s with
  | mk r t =>
    cases r with
    | ok a => exact hQ a t
    | error e => exact hE e t

theorem Triple.weakenError (h : Triple P m Q E) (hE : ∀ e s, E e s → E' e s) : Triple P m Q E' :=
  h.weaken (fun _ hs => hs) (fun _ _ hs => hs) hE

/-- A postcondition may also name the run itself. -/
theorem Triple.withRun {s : σ} (h : Triple (· = s) m Q E) :
    Triple (· = s) m (fun a t => Q a t ∧ exec m s = (.ok a, t))
      (fun e t => E e t ∧ exec m s = (.error e, t)) := by
  rintro _ rfl
  have hMeets := h _ rfl
  revert hMeets
  cases exec m _ with
  | mk r t => cases r <;> exact fun h => ⟨h, rfl⟩

theorem triple_pure {a : α} (h : ∀ s, P s → Q a s) : Triple P (pure a : Prog σ ε α) Q E :=
  h

theorem triple_throw {e : ε} (h : ∀ s, P s → E e s) : Triple P (throw e : Prog σ ε α) Q E :=
  h

theorem triple_modify {f : σ → σ} {Q : PUnit → σ → Prop} (h : ∀ s, P s → Q ⟨⟩ (f s)) :
    Triple P (modify f : Prog σ ε PUnit) Q E :=
  h

/-- A read-only check: the state stays, the result decides the case. -/
theorem triple_check {r : Except ε α} (hOk : ∀ a, r = .ok a → ∀ s, P s → Q a s)
    (hError : ∀ e, r = .error e → ∀ s, P s → E e s) :
    Triple P (ExceptT.mk (pure r) : Prog σ ε α) Q E := by
  intro s hs
  rw [exec_mk_pure]
  cases r with
  | ok a => exact hOk a rfl s hs
  | error e => exact hError e rfl s hs

/-- Stop with an error when a condition holds. -/
def refuseIf (c : Prop) [Decidable c] (e : ε) : Prog σ ε PUnit := if c then throw e else pure ⟨⟩

variable {R : β → σ → Prop}

theorem triple_bind {f : α → Prog σ ε β} (hFirst : Triple P m Q E)
    (hRest : ∀ a, Triple (Q a) (f a) R E) : Triple P (m >>= f) R E := by
  intro s hs
  rw [exec_bind]
  have hMeets := hFirst s hs
  revert hMeets
  cases exec m s with
  | mk r t =>
    cases r with
    | ok a => exact hRest a t
    | error e => exact id

/-- The continuation of a read may use the state it read. -/
theorem triple_get_bind {f : σ → Prog σ ε β} (h : ∀ s, P s → Meets R E (exec (f s) s)) :
    Triple P (get >>= f) R E := by
  intro s hs
  rw [exec_bind, exec_get]
  exact h s hs

/-- A read from a known state. -/
theorem triple_read {f : σ → Prog σ ε β} {s : σ} (h : Triple (· = s) (f s) R E) :
    Triple (· = s) (get >>= f) R E :=
  triple_get_bind fun t ht => by
    subst ht
    exact h t rfl

/-- A first part whose run from a known state is known. -/
theorem triple_run {f : α → Prog σ ε β} {s t : σ} {a : α} (hRun : exec m s = (.ok a, t))
    (h : Triple (· = t) (f a) R E) : Triple (· = s) (m >>= f) R E := by
  rintro _ rfl
  rw [exec_bind, hRun]
  exact h t rfl

/-- A pure part of the precondition may be assumed. -/
theorem triple_assume {φ : Prop} (h : φ → Triple P m Q E) : Triple (fun s => P s ∧ φ) m Q E :=
  fun s hs => h hs.2 s hs.1

/-- A precondition may be split into the states that meet it. -/
theorem triple_of_forall (h : ∀ s, P s → Triple (· = s) m Q E) : Triple P m Q E :=
  fun s hs => h s hs s rfl

theorem triple_tryCatch {handler : ε → Prog σ ε α} {F : ε → σ → Prop} (hBody : Triple P m Q F)
    (hHandler : ∀ e, Triple (F e) (handler e) Q E) : Triple P (tryCatch m handler) Q E := by
  intro s hs
  rw [exec_tryCatch]
  have hMeets := hBody s hs
  revert hMeets
  cases exec m s with
  | mk r t =>
    cases r with
    | ok a => exact id
    | error e => exact hHandler e t

theorem triple_ite {c : Prop} [Decidable c] {n : Prog σ ε α} (hThen : c → Triple P m Q E)
    (hElse : ¬ c → Triple P n Q E) : Triple P (if c then m else n) Q E := by
  split
  · exact hThen ‹_›
  · exact hElse ‹_›

/-- A loop over a list keeps an invariant of its accumulator and the state. -/
theorem triple_foldlM {γ : Type} {I : γ → σ → Prop} {f : γ → α → Prog σ ε γ} (items : List α)
    (hStep : ∀ acc, ∀ a ∈ items, Triple (I acc) (f acc a) I E) :
    ∀ init, Triple (I init) (items.foldlM f init) I E := by
  induction items with
  | nil =>
    intro init
    exact triple_pure fun _ hs => hs
  | cons a items ih =>
    intro init
    rw [List.foldlM_cons]
    refine triple_bind (hStep init a List.mem_cons_self) fun acc => ?_
    exact ih (fun acc b hb => hStep acc b (List.mem_cons_of_mem a hb)) acc

end Program

/-! ## Pure results -/

section Result

variable {ε α β γ : Type}

variable {x : Except ε α} {f : α → Except ε β}

/-- A sequence of checks succeeds when both parts do. -/
theorem except_bind_eq_ok {b : β} : (x >>= f) = .ok b ↔ ∃ a, x = .ok a ∧ f a = .ok b := by
  cases x with
  | ok a => exact ⟨fun h => ⟨a, rfl, h⟩, fun ⟨_, hEq, h⟩ => Except.ok.inj hEq ▸ h⟩
  | error e =>
    refine ⟨fun h => (by cases h), ?_⟩
    rintro ⟨_, hEq, _⟩
    cases hEq

theorem except_bind_of_ok {a : α} (h : x = .ok a) : (x >>= f) = f a := by
  rw [h]
  rfl

theorem except_bind_of_error {e : ε} (h : x = .error e) : (x >>= f) = .error e := by
  rw [h]
  rfl

/-- Stop with an error where a condition holds. -/
def failIf (c : Prop) [Decidable c] (e : ε) : Except ε Unit := if c then .error e else .ok ()

theorem failIf_eq_ok {c : Prop} [Decidable c] {e : ε} {u : Unit} : failIf c e = .ok u ↔ ¬ c := by
  unfold failIf
  split <;> simp_all

/-- A loop of checks succeeds when every check does. -/
theorem forM_eq_ok {f : α → Except ε Unit} {items : List α} :
    items.forM f = .ok () ↔ ∀ a ∈ items, f a = .ok () := by
  induction items with
  | nil => exact ⟨fun _ _ h => (by cases h), fun _ => rfl⟩
  | cons a items ih =>
    change (f a >>= fun _ => items.forM f) = .ok () ↔ _
    rw [except_bind_eq_ok, List.forall_mem_cons, ← ih]
    exact ⟨fun ⟨_, hHead, hRest⟩ => ⟨hHead, hRest⟩, fun ⟨hHead, hRest⟩ => ⟨_, hHead, hRest⟩⟩

/-- A successful loop of checks keeps an invariant of its accumulator. -/
theorem foldlM_ok_invariant {I : γ → Prop} {f : γ → α → Except ε γ} (items : List α)
    (hStep : ∀ acc, ∀ a ∈ items, ∀ next, I acc → f acc a = .ok next → I next) :
    ∀ (init result : γ), I init → items.foldlM f init = .ok result → I result := by
  induction items with
  | nil =>
    intro init result hInit h
    rw [List.foldlM_nil] at h
    exact Except.ok.inj h ▸ hInit
  | cons a items ih =>
    intro init result hInit h
    rw [List.foldlM_cons, except_bind_eq_ok] at h
    obtain ⟨next, hNext, hRest⟩ := h
    exact ih (fun acc b hb => hStep acc b (List.mem_cons_of_mem a hb)) next result
      (hStep init a List.mem_cons_self next hInit hNext) hRest

/-- A loop whose steps succeed under an invariant succeeds. -/
theorem foldlM_ok_of_invariant {I : γ → Prop} {f : γ → α → Except ε γ} (items : List α)
    (hStep : ∀ acc, ∀ a ∈ items, I acc → ∃ next, f acc a = .ok next ∧ I next) :
    ∀ init, I init → ∃ result, items.foldlM f init = .ok result ∧ I result := by
  induction items with
  | nil =>
    intro init hInit
    exact ⟨init, rfl, hInit⟩
  | cons a items ih =>
    intro init hInit
    obtain ⟨next, hNext, hI⟩ := hStep init a List.mem_cons_self hInit
    obtain ⟨result, hResult, hEnd⟩ :=
      ih (fun acc b hb => hStep acc b (List.mem_cons_of_mem a hb)) next hI
    refine ⟨result, ?_, hEnd⟩
    rw [List.foldlM_cons, hNext]
    exact hResult

end Result

end MyOwnMesh.Foundation
