import Megatron.Corelib.ObufMemory

/-!
Where the writes of an `oBuf` go (`never_overruns_iff`).
-/

namespace Megatron

open Library

namespace OBufMem

variable {s : OBufMem} {room : ℕ} {c : SizedBytes} {ps : List Part}

/-- With `room` bytes left, no unchecked block is cut. -/
def Uncut (room : ℕ) (ps : List Part) : Prop :=
  ∀ before c after, ps = before ++ .unchecked c :: after →
    (bytesOf before).length ≤ room → (bytesOf before).length + c.1.length ≤ room

lemma uncut_nil (room : ℕ) : Uncut room [] := by
  intro before c after h
  exact absurd h.symm (by simp)

lemma Uncut.tail {p : Part} (h : Uncut room (p :: ps)) (hp : p.bytes.length ≤ room) :
    Uncut (room - p.bytes.length) ps := by
  intro before c after hps hle
  have hcut := h (p :: before) c after (by rw [hps, List.cons_append])
  rw [bytesOf_cons, List.length_append] at hcut
  have hfits := hcut (by omega)
  omega

lemma Uncut.cons {p : Part} (hhead : ∀ c, p = .unchecked c → c.1.length ≤ room)
    (htail : p.bytes.length ≤ room → Uncut (room - p.bytes.length) ps) : Uncut room (p :: ps) := by
  intro before c after hps hle
  cases before with
  | nil =>
    obtain ⟨rfl, rfl⟩ := List.cons.inj hps
    rw [bytesOf_nil, List.length_nil, Nat.zero_add]
    exact hhead c rfl
  | cons q before =>
    obtain ⟨rfl, rfl⟩ := List.cons.inj hps
    rw [bytesOf_cons, List.length_append] at hle ⊢
    have hfits := htail (by omega) before c after rfl (by omega)
    omega

lemma uncut_checked :
    Uncut room (.checked c :: ps) ↔ (c.1.length ≤ room → Uncut (room - c.1.length) ps) := by
  constructor
  · intro h hc
    exact h.tail hc
  · intro h
    refine Uncut.cons ?_ h
    rintro c' ⟨⟩

lemma uncut_unchecked :
    Uncut room (.unchecked c :: ps) ↔ c.1.length ≤ room ∧ Uncut (room - c.1.length) ps := by
  constructor
  · intro h
    have hc : c.1.length ≤ room := by
      have hcut := h [] c ps rfl (Nat.zero_le _)
      rwa [bytesOf_nil, List.length_nil, Nat.zero_add] at hcut
    exact ⟨hc, h.tail hc⟩
  · rintro ⟨hc, h⟩
    refine Uncut.cons ?_ fun _ => h
    rintro c' ⟨⟩
    exact hc

def left (s : OBufMem) : ℕ := s.bufsize - s.curPos

lemma left_append (s : OBufMem) (c : Bytes) : (s.append c).left = s.left - c.length := by
  rw [left, left, curPos_append, bufsize_append]
  omega

lemma Valid.fits_iff (hv : s.Valid) (n : ℕ) : s.curPos + n ≤ s.bufsize ↔ n ≤ s.left := by
  rw [Valid] at hv
  rw [left]
  omega

def Refused (e : Exn) (s : OBufMem) : Prop := e = .badAlloc ∧ s.Valid

lemma emit_wp (hv : s.Valid) (h : Uncut s.left ps) : (emit ps).wp (fun _ => Valid) Refused s := by
  induction ps generalizing s with
  | nil => exact Prog.wp_pure.mpr hv
  | cons p ps ih =>
    rw [emit_cons]
    by_cases hp : s.curPos + p.bytes.length ≤ s.bufsize
    · have hv' : (s.append p.bytes).Valid := hp
      refine Prog.wp_bind.mpr (Prog.wp_of_done (p.code_fits hv hp) (ih hv' ?_))
      rw [left_append]
      exact h.tail ((hv.fits_iff _).mp hp)
    · cases p with
      | checked c => exact Prog.wp_bind.mpr (Prog.wp_of_thrown (pack_throws hv c hp) ⟨rfl, hv⟩)
      | unchecked c => exact absurd ((hv.fits_iff _).mpr (uncut_unchecked.mp h).1) hp

lemma emit_undefined (hv : s.Valid) (h : ¬ Uncut s.left ps) : emit ps s = .undefined := by
  induction ps generalizing s with
  | nil => exact absurd (uncut_nil _) h
  | cons p ps ih =>
    rw [emit_cons]
    by_cases hp : s.curPos + p.bytes.length ≤ s.bufsize
    · have hv' : (s.append p.bytes).Valid := hp
      have hroom := (hv.fits_iff _).mp hp
      rw [Prog.bind_of_done (p.code_fits hv hp)]
      refine ih hv' fun htail => h ?_
      rw [left_append] at htail
      refine Uncut.cons ?_ fun _ => htail
      rintro c rfl
      exact hroom
    · cases p with
      | checked c =>
        refine absurd (uncut_checked.mpr fun hc => ?_) h
        exact absurd ((hv.fits_iff _).mpr hc) hp
      | unchecked c => exact Prog.bind_of_undefined (copyBytes_outside hp)

/-- A call of a method of `oBuf` that changes it. -/
inductive Op where
  | write (op : WriteOp)
  | clear

def code : Op → Storing Unit
  | .write op => op.code
  | .clear => clear

def step (s : OBufMem) (op : Op) : Option OBufMem := (code op).next s

def Careful (s : OBufMem) : Op → Prop
  | .write op => Uncut s.left op.parts
  | .clear => True

def Inside (s : OBufMem) (op : Op) : Prop :=
  (∃ s', code op s = .done () s' ∧ s'.curPos ≤ s'.bufsize) ∨ ∃ s', code op s = .thrown .badAlloc s'

lemma code_wp (hv : s.Valid) {op : Op} (h : s.Careful op) :
    (code op).wp (fun _ => Valid) Refused s := by
  cases op with
  | write op =>
    rw [code, op.code_eq]
    exact emit_wp hv h
  | clear => exact Prog.wp_modify.mpr (Nat.zero_le _)

lemma code_undefined (hv : s.Valid) {op : Op} (h : ¬ s.Careful op) : code op s = .undefined := by
  cases op with
  | write op =>
    rw [code, op.code_eq]
    exact emit_undefined hv h
  | clear => exact absurd trivial h

lemma inside_iff (hv : s.Valid) (op : Op) : s.Inside op ↔ s.Careful op := by
  constructor
  · intro h
    by_contra hno
    have hcode := code_undefined hv hno
    rcases h with ⟨s', hdone, -⟩ | ⟨s', hthrown⟩
    · exact absurd (hcode.symm.trans hdone) (by rintro ⟨⟩)
    · exact absurd (hcode.symm.trans hthrown) (by rintro ⟨⟩)
  · intro h
    have hwp := code_wp hv h
    rw [Prog.wp] at hwp
    split at hwp
    · next s' hdone => exact .inl ⟨s', hdone, hwp⟩
    · next e s' hthrown =>
        obtain ⟨rfl, -⟩ := hwp
        exact .inr ⟨s', hthrown⟩
    · exact hwp.elim

/-- **Which runs stay inside the array.** -/
theorem never_overruns_iff (sz : ArraySize) (b : ℕ → Byte) (calls : List Op) :
    Meets step Inside (ofArray sz b) calls ↔ Meets step Careful (ofArray sz b) calls := by
  refine Meets.congr (fun s op hv => inside_iff hv op) (fun {s op s'} hv h hs' => ?_)
    (show (ofArray sz b).Valid from Nat.zero_le _)
  have hwp := code_wp hv ((inside_iff hv op).mp h)
  obtain ⟨m, hm, hvm⟩ := Prog.next_of_wp (Prog.wp_mono hwp (fun _ _ h => h) fun _ _ h => h.2)
  cases hm.symm.trans hs'
  exact hvm

/-- **A string leaves the array.** -/
theorem string_leaves_array : ¬ Inside (ofArray ⟨3, by decide⟩ fun _ => 0#8)
      (.write (.putPSTR ⟨[97#8, 98#8, 99#8], by decide⟩)) := by
  have hcode : code (.write (.putPSTR ⟨[97#8, 98#8, 99#8], by decide⟩))
      (ofArray ⟨3, by decide⟩ fun _ => 0#8) = .undefined := rfl
  rintro (⟨s', h, -⟩ | ⟨s', h⟩)
  · exact absurd (hcode.symm.trans h) (by rintro ⟨⟩)
  · exact absurd (hcode.symm.trans h) (by rintro ⟨⟩)

end OBufMem

end Megatron
