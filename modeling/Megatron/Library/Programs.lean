import Megatron.Library.Runs

/-!
Programs on a state that return, throw an exception, or do something undefined, such as an
access outside of an array. An exception leaves the state as it was when it was thrown.
-/

namespace Library

inductive Outcome (σ ε α : Type) where
  | done (a : α) (s : σ)
  | thrown (e : ε) (s : σ)
  | undefined

def Outcome.value? {σ ε α : Type} : Outcome σ ε α → Option α
  | .done a _ => some a
  | _ => none

/-- Programs on a state `σ` that return an `α` or throw an `ε`. -/
def Prog (σ ε α : Type) : Type := σ → Outcome σ ε α

namespace Prog

variable {σ ε α β : Type}

def andThen (m : Prog σ ε α) (f : α → Prog σ ε β) : Prog σ ε β := fun s =>
  match m s with
  | .done a s' => f a s'
  | .thrown e s' => .thrown e s'
  | .undefined => .undefined

instance : Monad (Prog σ ε) where
  pure a := fun s => .done a s
  bind := andThen

def state : Prog σ ε σ := fun s => .done s s

def modify (f : σ → σ) : Prog σ ε Unit := fun s => .done () (f s)

def fail (e : ε) : Prog σ ε α := fun s => .thrown e s

def require (p : Prop) [Decidable p] : Prog σ ε Unit := fun s =>
  if p then .done () s else .undefined

def discard (m : Prog σ ε α) : Prog σ ε Unit := do
  let _ ← m
  pure ()

def rethrow (f : ε → ε) (m : Prog σ ε α) : Prog σ ε α := fun s =>
  match m s with
  | .thrown e s' => .thrown (f e) s'
  | r => r

/-- The program `f` for one entry of a list after the other. -/
def each (f : α → Prog σ ε Unit) : List α → Prog σ ε Unit
  | [] => pure ()
  | a :: as => do
      f a
      each f as

section

variable {m : Prog σ ε α} {f : α → Prog σ ε β} {s s' : σ} {a : α} {e : ε}

lemma bind_apply : (m >>= f) s = andThen m f s := rfl

lemma bind_of_done (h : m s = .done a s') : (m >>= f) s = f a s' := by
  rw [bind_apply, andThen, h]

lemma bind_of_thrown (h : m s = .thrown e s') : (m >>= f) s = .thrown e s' := by
  rw [bind_apply, andThen, h]

lemma bind_of_undefined (h : m s = .undefined) : (m >>= f) s = .undefined := by
  rw [bind_apply, andThen, h]

lemma bind_assoc {γ : Type} (m : Prog σ ε α) (f : α → Prog σ ε β) (g : β → Prog σ ε γ) :
    (m >>= f) >>= g = m >>= fun a => f a >>= g := by
  funext s
  show andThen (andThen m f) g s = andThen m (fun a => andThen (f a) g) s
  rw [andThen, andThen, andThen]
  cases m s <;> rfl

lemma bind_pure (m : Prog σ ε Unit) : (m >>= fun _ => pure ()) = m := by
  funext s
  rw [bind_apply, andThen]
  cases m s <;> rfl

@[simp] lemma pure_apply (a : α) (s : σ) : (pure a : Prog σ ε α) s = .done a s := rfl

@[simp] lemma state_bind (f : σ → Prog σ ε β) (s : σ) : (state >>= f) s = f s s := rfl

@[simp] lemma modify_apply (f : σ → σ) (s : σ) :
    (modify f : Prog σ ε Unit) s = .done () (f s) := rfl

lemma require_of_pos {p : Prop} [Decidable p] (h : p) (s : σ) :
    (require p : Prog σ ε Unit) s = .done () s := if_pos h

lemma require_of_neg {p : Prop} [Decidable p] (h : ¬ p) (s : σ) :
    (require p : Prog σ ε Unit) s = .undefined := if_neg h

lemma discard_of_undefined (h : m s = .undefined) : discard m s = .undefined := bind_of_undefined h

lemma rethrow_of_undefined {g : ε → ε} (h : m s = .undefined) : rethrow g m s = .undefined := by
  rw [rethrow, h]

end

/-! ### What holds after a program -/

/-- `Q` holds if the program returns and `E` if it throws. -/
def wp (m : Prog σ ε α) (Q : α → σ → Prop) (E : ε → σ → Prop) (s : σ) : Prop :=
  match m s with
  | .done a s' => Q a s'
  | .thrown e s' => E e s'
  | .undefined => False

section

variable {m : Prog σ ε α} {f : α → Prog σ ε β} {Q Q' : α → σ → Prop} {E E' : ε → σ → Prop}
  {s s' : σ} {a : α} {e : ε}

lemma wp_of_done (h : m s = .done a s') (hQ : Q a s') : wp m Q E s := by
  rw [wp, h]
  exact hQ

lemma wp_of_thrown (h : m s = .thrown e s') (hE : E e s') : wp m Q E s := by
  rw [wp, h]
  exact hE

lemma wp_mono (h : wp m Q E s) (hQ : ∀ a s', Q a s' → Q' a s')
    (hE : ∀ e s', E e s' → E' e s') : wp m Q' E' s := by
  rw [wp] at h ⊢
  split at h
  · exact hQ _ _ h
  · exact hE _ _ h
  · exact h

lemma done_of_wp (h : wp m Q (fun _ _ => False) s) : ∃ a s', m s = .done a s' ∧ Q a s' := by
  rw [wp] at h
  split at h
  · next a s' heq => exact ⟨a, s', heq, h⟩
  · exact h.elim
  · exact h.elim

@[simp] lemma wp_bind {Q : β → σ → Prop} :
    wp (m >>= f) Q E s ↔ wp m (fun a => wp (f a) Q E) E s := by
  rw [wp, wp, bind_apply, andThen]
  cases m s <;> rfl

@[simp] lemma wp_pure : wp (pure a) Q E s ↔ Q a s := Iff.rfl

@[simp] lemma wp_fail : wp (fail e) Q E s ↔ E e s := Iff.rfl

@[simp] lemma wp_state {Q : σ → σ → Prop} : wp state Q E s ↔ Q s s := Iff.rfl

@[simp] lemma wp_modify {g : σ → σ} {Q : Unit → σ → Prop} :
    wp (modify g) Q E s ↔ Q () (g s) := Iff.rfl

@[simp] lemma wp_require {p : Prop} [Decidable p] {Q : Unit → σ → Prop} :
    wp (require p) Q E s ↔ p ∧ Q () s := by
  rw [wp, require]
  by_cases h : p <;> simp [h]

@[simp] lemma wp_discard {Q : Unit → σ → Prop} :
    wp (discard m) Q E s ↔ wp m (fun _ => Q ()) E s := by
  rw [discard, wp_bind]
  rfl

lemma wp_rethrow {g : ε → ε} : wp (rethrow g m) Q E s ↔ wp m Q (fun e => E (g e)) s := by
  rw [wp, wp, rethrow]
  cases m s <;> rfl

end

/-! ### Calls one after the other -/

def next (m : Prog σ ε α) (s : σ) : Option σ :=
  match m s with
  | .done _ s' => some s'
  | .thrown _ s' => some s'
  | .undefined => none

lemma next_of_wp {m : Prog σ ε α} {I : σ → Prop} {s : σ}
    (h : wp m (fun _ => I) (fun _ => I) s) : ∃ s', m.next s = some s' ∧ I s' := by
  rw [wp] at h
  rw [next]
  split at h
  · next a s' heq => exact ⟨s', rfl, h⟩
  · next e s' heq => exact ⟨s', rfl, h⟩
  · exact h.elim

end Prog

section

variable {σ ε α γ : Type} {prog : γ → Prog σ ε α} {ok : σ → γ → Prop} {I : σ → Prop} {s s' : σ}
  {calls : List γ}

/-- **Calls that keep an invariant are never undefined.** -/
theorem run_defined (hstep : ∀ s c, I s → ok s c → (prog c).wp (fun _ => I) (fun _ => I) s)
    (hs : I s) (hmeets : Meets (fun s c => (prog c).next s) ok s calls) :
    ∃ s', run (fun s c => (prog c).next s) s calls = some s' ∧ I s' := by
  induction calls generalizing s with
  | nil => exact ⟨s, rfl, hs⟩
  | cons c calls ih =>
    obtain ⟨m, hm, hI⟩ := Prog.next_of_wp (hstep s c hs hmeets.1)
    obtain ⟨s', hrun, hs'⟩ := ih hI (hmeets.tail hm)
    exact ⟨s', run_cons_eq_some.mpr ⟨m, hm, hrun⟩, hs'⟩

theorem meets_of_run (hstep : ∀ s c, I s → ok s c → (prog c).wp (fun _ => I) (fun _ => I) s)
    (hexact : ∀ s c, I s → ¬ ok s c → prog c s = .undefined) (hs : I s)
    (hrun : run (fun s c => (prog c).next s) s calls = some s') :
    Meets (fun s c => (prog c).next s) ok s calls := by
  induction calls generalizing s with
  | nil => trivial
  | cons c calls ih =>
    obtain ⟨m, hm, hrest⟩ := run_cons_eq_some.mp hrun
    have hok : ok s c := by
      by_contra hno
      rw [Prog.next, hexact s c hs hno] at hm
      cases hm
    obtain ⟨m', hm', hI⟩ := Prog.next_of_wp (hstep s c hs hok)
    cases hm'.symm.trans hm
    refine ⟨hok, ?_⟩
    simp only [hm]
    exact ih hI hrest

end

end Library
