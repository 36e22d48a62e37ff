import Megatron.Timer.Worker
import Megatron.Library.Fair

/-!
In which order timer tasks fire: the table stands for a queue ordered by the deadlines, and no
signal to the worker is missed (`Sound.step`).
-/

namespace Megatron.Timer

open Library List

section

variable {st st' : State} {tb : ℤ} {q : List (ℤ × ℕ)}

lemma push_eq_pushBucket (tb : ℤ) (id : ℕ) (l : List (ℤ × List ℕ)) :
    push tb id l = pushBucket tb id l := by
  induction l with
  | nil => rfl
  | cons b l ih => rw [push, pushBucket, ih]

lemma buckets_handle (h : Buckets st.nexts q) (hs : handle st tb = some st') :
    Buckets st'.nexts (q ++ (inserted st (.handle tb)).toList) := by
  rcases handle_eq_some hs with ⟨ty, k, rest, hh, rfl⟩ | ⟨t, rest, hh, rfl⟩
  · simpa [inserted, hh] using h
  · simpa [inserted, hh, push_eq_pushBucket] using h.push tb st.tasks.length

lemma buckets_finish (h : Buckets st.nexts q) (hs : finish st tb = some st') :
    Buckets st'.nexts (q ++ (inserted st (.finish tb)).toList) := by
  obtain ⟨id, t, hc, ht, ⟨hty, rfl⟩ | ⟨hty, rfl⟩⟩ := finish_eq_some hs
  · simpa [inserted, hc, ht, hty, push_eq_pushBucket] using h.push tb id
  · simpa [inserted, hc, ht, hty] using h

end

/-! ### What a step of the service leaves as it is -/

section

variable {st st' : State} {a : Action}

lemma handle_frame {tb : ℤ} (hs : handle st tb = some st') :
    st'.batch = st.batch ∧ st'.current = st.current ∧ st'.terminating = st.terminating := by
  rcases handle_eq_some hs with ⟨ty, k, rest, -, rfl⟩ | ⟨t, rest, -, rfl⟩
  · exact ⟨rfl, rfl, rfl⟩
  · exact ⟨rfl, rfl, rfl⟩

lemma begin_frame {ev : Event} (hs : begin st ev = some st') : st'.nexts = st.nexts ∧
    st'.batch = st.batch ∧ st'.current = st.current ∧ st'.terminating = st.terminating := by
  obtain ⟨-, ⟨-, rfl⟩ | ⟨-, rfl⟩⟩ := begin_eq_some hs
  · exact ⟨rfl, rfl, rfl, rfl⟩
  · exact ⟨rfl, rfl, rfl, rfl⟩

lemma check_frame (hs : check st = some st') :
    st'.nexts = st.nexts ∧ st'.terminating = st.terminating := by
  obtain ⟨-, id, rest, -, ⟨-, rfl⟩ | ⟨-, -, rfl⟩ | ⟨-, -, rfl⟩⟩ := check_eq_some hs <;>
    exact ⟨rfl, rfl⟩

lemma pass_frame {returns : Bool} (hs : pass st returns = some st') :
    st'.nexts = st.nexts ∧ st'.terminating = st.terminating := by
  obtain ⟨id, t, -, -, ⟨-, rfl⟩ | ⟨tick, -, ⟨-, rfl⟩ | ⟨-, rfl⟩⟩⟩ := pass_eq_some hs <;>
    exact ⟨rfl, rfl⟩

lemma batch_of_pass {returns : Bool} (hs : pass st returns = some st')
    (hc : st'.current = none) : st'.batch = [] := by
  obtain ⟨id, t, -, -, ⟨-, rfl⟩ | ⟨tick, -, ⟨-, rfl⟩ | ⟨-, rfl⟩⟩⟩ := pass_eq_some hs
  · rfl
  · cases hc
  · rfl

lemma finish_terminating {tb : ℤ} (hs : finish st tb = some st') :
    st'.terminating = st.terminating := by
  obtain ⟨id, t, -, -, ⟨-, rfl⟩ | ⟨-, rfl⟩⟩ := finish_eq_some hs
  · rfl
  · rfl

end

/-! ### The invariant of the machine -/

def Place.Misses : Place → ℤ → Prop
  | .waiting, _ => True
  | .timedWaiting ts, d => d < ts
  | _, _ => False

/-- The table stands for the queue, and no signal is missed. -/
structure Sound (m : Machine) : Prop where
  buckets : Buckets m.service.nexts m.queue
  idle : m.place ≠ .batch → m.place ≠ .returned → m.service.batch = [] ∧ m.service.current = none
  signalled : ∀ e ∈ m.queue, m.place.Misses e.1 → m.woken = true ∨ m.owed = true
  returned : m.place = .returned → m.service.terminating = true

lemma sound_initial : Sound Machine.initial where
  buckets := Buckets.nil
  idle _ _ := ⟨rfl, rfl⟩
  signalled := nofun
  returned := nofun

lemma Place.blocked_of_misses {p : Place} {d : ℤ} (h : p.Misses d) : p.blocked = true := by
  cases p with
  | waiting | timedWaiting ts => rfl
  | outer | inner | batch | returned => exact h.elim

/-- **Every step keeps the invariant.** -/
theorem Sound.step {m m' : Machine} {mv : Move} (h : Sound m) (hs : m.step mv = some m') :
    Sound m' := by
  cases Machine.step_effect hs with
  | outerReturn hp hterm | wakeReturn hb hterm | innerReturn hp hterm =>
    exact ⟨h.buckets, fun _ hr => absurd rfl hr, nofun, fun _ => hterm⟩
  | outerWait hp hterm hn =>
    have hempty : m.queue = [] := (hn ▸ h.buckets : Buckets [] m.queue).queue_eq_nil
    refine ⟨h.buckets, fun _ _ => h.idle (by simp [hp]) (by simp [hp]), fun e he => ?_, nofun⟩
    exact absurd he (hempty ▸ not_mem_nil)
  | outerEnter hp hterm hn =>
    exact ⟨h.buckets, fun _ _ => h.idle (by simp [hp]) (by simp [hp]), nofun, nofun⟩
  | wakeResume hb hterm =>
    refine ⟨h.buckets, fun _ _ => h.idle ?_ ?_, nofun, nofun⟩
    · intro hp
      rw [hp] at hb
      cases hb
    · intro hp
      rw [hp] at hb
      cases hb
  | innerIdle hp hterm hn | setClock => exact ⟨h.buckets, h.idle, h.signalled, h.returned⟩
  | innerSleep hp hterm hn hlt =>
    refine ⟨h.buckets, fun _ _ => h.idle (by simp [hp]) (by simp [hp]), fun e he hmiss => ?_, nofun⟩
    -- the worker sleeps until the least deadline
    exact absurd ((hn ▸ h.buckets).le he) (not_le.mpr hmiss)
  | innerTake hp hn hd htake => exact ⟨(hn ▸ h.buckets).tail, fun hb => absurd rfl hb, nofun, nofun⟩
  | checkDone hp hb hc => exact ⟨h.buckets, fun _ _ => ⟨hb, hc⟩, nofun, nofun⟩
  | checkReturn hp hst hterm =>
    obtain ⟨hn, ht⟩ := check_frame hst
    exact ⟨by rw [hn]; exact h.buckets, fun _ hr => absurd rfl hr, nofun, fun _ => ht.trans hterm⟩
  | checkTask hp hst hterm =>
    obtain ⟨hn, ht⟩ := check_frame hst
    refine ⟨by rw [hn]; exact h.buckets, fun hb => absurd hp hb, h.signalled, fun hr => ?_⟩
    exact ht.trans (h.returned hr)
  | passThrow hp hst hc =>
    obtain ⟨hn, ht⟩ := pass_frame hst
    exact ⟨by rw [hn]; exact h.buckets, fun _ _ => ⟨batch_of_pass hst hc, hc⟩, nofun, nofun⟩
  | passed hp hst hc =>
    obtain ⟨hn, ht⟩ := pass_frame hst
    refine ⟨by rw [hn]; exact h.buckets, fun hb => absurd hp hb, h.signalled, fun hr => ?_⟩
    exact ht.trans (h.returned hr)
  | finish hp hst =>
    refine ⟨buckets_finish h.buckets hst, fun hb => absurd hp hb, fun e he hmiss => ?_,
      fun hr => (finish_terminating hst).trans (h.returned hr)⟩
    have hblocked := Place.blocked_of_misses hmiss
    simp only [hp] at hblocked
    cases hblocked
  | begin howed hst =>
    obtain ⟨hn, hb, hc, ht⟩ := begin_frame hst
    exact ⟨by rw [hn]; exact h.buckets, by rw [hb, hc]; exact h.idle, h.signalled,
      by rw [ht]; exact h.returned⟩
  | handle howed hst =>
    obtain ⟨hb, hc, ht⟩ := handle_frame hst
    refine ⟨buckets_handle h.buckets hst, by rw [hb, hc]; exact h.idle, fun e he hmiss => ?_,
      by rw [ht]; exact h.returned⟩
    rcases mem_append.mp he with he | he
    · exact .inl ((h.signalled e he hmiss).resolve_right (by simp [howed]))
    · -- a new entry: the handler will signal
      exact .inr (by simp only [Option.isSome_iff_exists]; exact ⟨e, Option.mem_toList.mp he⟩)
  | signal howed | broadcast hterm =>
    refine ⟨h.buckets, h.idle, fun e he hmiss => .inl ?_, h.returned⟩
    simp only [Place.blocked_of_misses hmiss, Bool.or_true]
  | deinit => exact ⟨h.buckets, h.idle, h.signalled, fun _ => rfl⟩
  | clear hterm => exact ⟨Buckets.nil, h.idle, nofun, h.returned⟩

/-! ### Batches -/

lemma batch_taken {m m' : Machine} (h : Sound m) (hs : m.step .inner = some m')
    (hp : m'.place = .batch) : ∃ d, IsLeast {x | ∃ id, (x, id) ∈ m.queue} d ∧ d ≤ m.clock ∧
      m'.service.batch = (m.queue.filter (·.1 = d)).map Prod.snd ∧
      m'.queue = m.queue.filter (·.1 ≠ d) := by
  cases Machine.step_effect hs with
  | innerTake hin hn hd htake =>
    have hb := hn ▸ h.buckets
    refine ⟨_, ⟨hb.exists_first, ?_⟩, hd, hb.first_eq, rfl⟩
    rintro x ⟨id, hx⟩
    exact hb.le hx
  | innerReturn | innerSleep => cases hp
  | innerIdle hin =>
    rw [show m.place = .batch from hp] at hin
    cases hin

lemma batch_kept {m m' : Machine} {mv : Move} (hs : m.step mv = some m') (hp : m'.place = .batch) :
    mv = .inner ∧ m'.service.current = none ∨
      m.place = .batch ∧ ∀ id, m'.service.Holds id → m.service.Holds id := by
  cases Machine.step_effect hs with
  | innerTake hin hn hd htake =>
    obtain ⟨-, -, hc, -⟩ := take_eq_some htake
    exact .inl ⟨rfl, hc⟩
  | checkTask hin hst =>
    refine .inr ⟨hin, fun id hid => ?_⟩
    obtain ⟨hc, x, rest, hb, ⟨-, rfl⟩ | ⟨-, -, rfl⟩ | ⟨-, -, rfl⟩⟩ := check_eq_some hst
    · rcases hid with hid | hid
      · cases hid
      · exact .inr hid
    · exact hid.imp_left fun hid => hb ▸ mem_cons_of_mem x hid
    · rcases hid with hid | hid
      · exact .inl (hb ▸ mem_cons_of_mem x hid)
      · cases hid
        exact .inl (hb ▸ mem_cons_self)
  | passed hin hst hcur =>
    refine .inr ⟨hin, fun id hid => ?_⟩
    obtain ⟨x, t, hc, -, ⟨-, rfl⟩ | ⟨tick, -, ⟨-, rfl⟩ | ⟨-, rfl⟩⟩⟩ := pass_eq_some hst
    · exact absurd rfl hcur
    · refine hid.imp_right fun hid => ?_
      rw [State.handling, hc]
      exact hid
    · exact absurd rfl hcur
  | finish hin hst =>
    refine .inr ⟨hin, fun id hid => ?_⟩
    obtain ⟨x, t, -, -, ⟨-, rfl⟩ | ⟨-, rfl⟩⟩ := finish_eq_some hst
    · exact .inl (hid.resolve_right fun hcur => by cases hcur)
    · exact .inl (hid.resolve_right fun hcur => by cases hcur)
  | begin howed hst =>
    obtain ⟨-, hb, hc, -⟩ := begin_frame hst
    refine .inr ⟨hp, fun id hid => ?_⟩
    rwa [State.Holds, State.handling, hb, hc] at hid
  | handle howed hst =>
    obtain ⟨hb, hc, -⟩ := handle_frame hst
    refine .inr ⟨hp, fun id hid => ?_⟩
    rwa [State.Holds, State.handling, hb, hc] at hid
  | innerIdle | signal | setClock | deinit | clear | broadcast =>
    exact .inr ⟨hp, fun _ hid => hid⟩
  | outerReturn | outerWait | outerEnter | wakeReturn | wakeResume | innerReturn | innerSleep
  | checkDone | checkReturn | passThrow => cases hp

section

variable {e : Execution Machine.step}

lemma decision_of_batch (h0 : e.state 0 = Machine.initial) {n : ℕ}
    (hp : (e.state n).place = .batch) : ∃ k < n, ∃ d, e.act k = .inner ∧ d ≤ (e.state k).clock ∧
      (∀ j, k < j → j ≤ n → (e.state j).place = .batch) ∧ ∀ id, (e.state n).service.Holds id →
        (d, id) ∈ (e.state k).queue ∧ id ∈ (e.state (k + 1)).service.batch := by
  have hsound (n : ℕ) : Sound (e.state n) := Execution.invariant' Sound.step (h0 ▸ sound_initial) n
  induction n with
  | zero =>
    rw [h0] at hp
    cases hp
  | succ n ih =>
    rcases batch_kept (e.next n) hp with ⟨hin, hc⟩ | ⟨hin, hheld⟩
    · -- the batch has just been taken
      have hs : (e.state n).step .inner = some (e.state (n + 1)) := hin ▸ e.next n
      obtain ⟨d, -, hd, hbatch, -⟩ := batch_taken (hsound n) hs hp
      refine ⟨n, n.lt_succ_self, d, hin, hd, fun j hj hjn => ?_, fun id hid => ?_⟩
      · obtain rfl : j = n + 1 := by omega
        exact hp
      · have hmem : id ∈ (e.state (n + 1)).service.batch := by
          refine hid.resolve_right fun hcur => ?_
          rw [State.handling, hc] at hcur
          cases hcur
        refine ⟨?_, hmem⟩
        rw [hbatch, mem_map] at hmem
        obtain ⟨⟨x, id'⟩, hx, rfl⟩ := hmem
        obtain ⟨hqueue, hxd⟩ := mem_filter.mp hx
        obtain rfl : x = d := of_decide_eq_true hxd
        exact hqueue
    · obtain ⟨k, hk, d, hact, hd, hbusy, hids⟩ := ih hin
      refine ⟨k, by omega, d, hact, hd, fun j hj hjn => ?_, fun id hid => hids id (hheld id hid)⟩
      rcases Nat.lt_or_ge n j with hlast | hle
      · obtain rfl : j = n + 1 := by omega
        exact hp
      · exact hbusy j hj hle

end

end Megatron.Timer
