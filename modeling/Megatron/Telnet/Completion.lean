import Megatron.Telnet.Commands

/-!
What the tabulator key appends to the line (`getAutoAppendString`).
-/

namespace Megatron.Telnet

open Library List

lemma find_eq_zero_iff {templ name : Bytes} : find templ name = some 0 ↔ templ <+: name := by
  refine ⟨fun h => prefix_of_find h, fun h => ?_⟩
  cases name with
  | nil => rw [find, if_pos (prefix_nil.mp h)]
  | cons a name => exact find_cons_pos h

lemma prefix_iff_le_strmax {p a : Bytes} (h : p <+: a) (b : Bytes) :
    p <+: b ↔ p.length ≤ strmax a b := by
  induction p generalizing a b with
  | nil => exact iff_of_true nil_prefix (Nat.zero_le _)
  | cons z p ih =>
    obtain ⟨rest, rfl⟩ := h
    cases b with
    | nil => exact iff_of_false (by simp) (Nat.not_succ_le_zero _)
    | cons y b =>
      rw [cons_append, strmax, cons_prefix_cons, length_cons]
      split_ifs with hne
      · exact iff_of_false (fun hp => hne hp.1) (Nat.not_succ_le_zero _)
      · rw [ih (prefix_append _ _), Nat.add_le_add_iff_right, and_iff_right (not_not.mp hne)]

/-- The loop keeps the least value. -/
lemma le_foldl_min {β : Type*} {f : β → ℕ} {n m : ℕ} {l : List β} :
    n ≤ l.foldl (fun max s => if f s < max then f s else max) m ↔ n ≤ m ∧ ∀ s ∈ l, n ≤ f s := by
  induction l generalizing m with
  | nil => simp
  | cons s l ih =>
    rw [foldl_cons, ih, forall_mem_cons]
    split_ifs <;> constructor <;> rintro ⟨hm, hl⟩ <;> grind

structure Completes (v : List Bytes) (templ x : Bytes) : Prop where
  common : ∀ name ∈ v, templ <+: name → templ ++ x <+: name
  longest : ∀ y, (∀ name ∈ v, templ <+: name → templ ++ y <+: name) →
    (∃ name ∈ v, templ <+: name) → y.length ≤ x.length
  none : (∀ name ∈ v, ¬ templ <+: name) → x = []

variable {v : List Bytes} {templ x x' : Bytes}

lemma Completes.unique (h : Completes v templ x) (h' : Completes v templ x') : x = x' := by
  by_cases hex : ∃ name ∈ v, templ <+: name
  · have hlen := le_antisymm (h'.longest x h.common hex) (h.longest x' h'.common hex)
    obtain ⟨name, hname, hpre⟩ := hex
    have hxx := prefix_of_prefix_length_le (h.common name hname hpre)
      (h'.common name hname hpre) (by simp [hlen])
    exact (prefix_append_right_inj templ |>.mp hxx).eq_of_length hlen
  · have hnone : ∀ name ∈ v, ¬ templ <+: name := fun name hname hpre => hex ⟨name, hname, hpre⟩
    rw [h.none hnone, h'.none hnone]

lemma completes (v : List Bytes) (templ : Bytes) :
    Completes v templ (getAutoAppendString v templ) := by
  have hmem (name : Bytes) :
      name ∈ v.filter (fun s => find templ s = some 0) ↔ name ∈ v ∧ templ <+: name := by
    rw [mem_filter, decide_eq_true_iff, find_eq_zero_iff]
  rw [getAutoAppendString]
  split
  next hvm =>
    have hnone (name : Bytes) (hname : name ∈ v) (hpre : templ <+: name) : False := by
      have := (hmem name).mpr ⟨hname, hpre⟩
      rw [hvm] at this
      exact not_mem_nil this
    exact ⟨fun name hname hpre => (hnone name hname hpre).elim,
      fun _ _ ⟨name, hname, hpre⟩ => (hnone name hname hpre).elim, fun _ => rfl⟩
  next vm₀ vm hvm =>
    rw [hvm] at hmem
    generalize hmax : (vm₀ :: vm).foldl _ vm₀.length = max
    -- the prefixes of the first name that all names have are the ones up to `max`
    have hall {p : Bytes} (hp : p <+: vm₀) :
        p.length ≤ max ↔ ∀ name ∈ v, templ <+: name → p <+: name := by
      rw [← hmax, le_foldl_min, and_iff_right hp.length_le]
      simp only [← prefix_iff_le_strmax hp, hmem, and_imp]
    obtain ⟨hv, hpre⟩ := (hmem vm₀).mp mem_cons_self
    have hle : templ.length ≤ max := (hall hpre).mpr fun _ _ h => h
    have hmax₀ : max ≤ vm₀.length := (le_foldl_min.mp hmax.ge).1
    have htake : templ ++ (vm₀.drop templ.length).take (max - templ.length) = vm₀.take max := by
      obtain ⟨rest, rfl⟩ := hpre
      rw [drop_left, take_append, take_of_length_le hle]
    refine ⟨?_, fun y hy _ => ?_, fun h => (h vm₀ hv hpre).elim⟩
    · rw [htake]
      exact (hall (List.take_prefix _ _)).mp (length_take_le _ _)
    · have hy := (hall (hy vm₀ hv hpre)).mpr hy
      rw [length_append] at hy
      rw [length_take, length_drop]
      omega

/-- **Completion.** The longest common continuation is returned. -/
theorem getAutoAppendString_completes (v : List Bytes) (templ : Bytes) :
    Completes v templ (getAutoAppendString v templ) ∧
      ∀ v' : List Bytes, (∀ name, name ∈ v' ↔ name ∈ v) →
        getAutoAppendString v' templ = getAutoAppendString v templ := by
  refine ⟨completes v templ, fun v' hv => ?_⟩
  obtain ⟨hcommon, hlongest, hnone⟩ := completes v' templ
  simp only [hv] at hcommon hlongest hnone
  exact Completes.unique ⟨hcommon, hlongest, hnone⟩ (completes v templ)

end Megatron.Telnet
