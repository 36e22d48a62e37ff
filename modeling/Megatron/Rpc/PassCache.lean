import Megatron.Rpc.Channels
import Megatron.Rpc.Soundness

/-!
Packets passed to an accepted socket, in every interleaving of `on_PassPacket`, `on_Accepted` and
`on_Disaccepted`: at rest they are written, in order (`Incoming.step`, `passed_packets_written`).
-/

namespace Megatron.Concurrent

open Library List Function State

/-- No other thread is at work on what the operation uses. -/
def Op.PassCalm (st : State) : Op → Prop
  -- the socket is not registered and not gone, or `on_Accepted` is still to move its packets
  | .passPush s _ => (st.sock2sess s = false ∧ st.disaccepted s = false) ∨ st.HasOp (· = .drain s)
  -- nothing waits for the socket, or `on_Accepted` is still to move it
  | .disErase s => st.passCache s = [] ∨ st.HasOp (· = .drain s)
  -- no earlier packet of the caller is still cached or being written
  | .write _ p true => ∀ s, p.dest = .sock s → ∀ q, q.caller = p.caller → q.dest = .sock s →
      q ∉ st.passCache s ∧ ¬ st.HasOp fun op => op.relayed = some q
  | _ => True

def PassCalm (st : State) : Action → Prop
  | .exec t => ∀ op ∈ (st.threads t).head?, op.PassCalm st
  | _ => True

def Op.Accepts (s : ℕ) : Op → Prop
  | .acceptInsert s' | .drain s' => s' = s
  | _ => False

structure Incoming (st : State) : Prop where
  sound : Sound st
  alone : ∀ s t, ∀ op ∈ st.threads t, op.Accepts s → st.threads t = [op]
  unique : ∀ s t t', ∀ op ∈ st.threads t, ∀ op' ∈ st.threads t',
    op.Accepts s → op'.Accepts s → t = t'
  due : ∀ s, st.acceptedDue s = true → ¬ st.HasOp (Op.Accepts s)
  unwritten : ∀ s, st.acceptedDue s = true ∨ st.HasOp (Op.Accepts s) →
    ∀ q, q.dest = .sock s → ¬ st.HasOp fun op => op.relayed = some q
  cached : ∀ s, st.passCache s ≠ [] →
    (st.sock2sess s = false ∧ st.disaccepted s = false) ∨ st.HasOp (· = .drain s)
  ordered : ∀ s, (st.channel (.sock s)).Ordered Packet.caller

section

variable {st st' : State} {t t' s : ℕ} {op op' : Op} {new rest : List Op} {q : Packet}

lemma accepts_next (hnext : next st op = some new) (hop' : op' ∈ new) (h : op'.Accepts s) :
    op = .acceptInsert s ∧ op' = .drain s := by
  cases next_cases hnext with
  | @acceptInsert s' =>
    rw [mem_singleton.mp hop'] at h ⊢
    obtain rfl : s' = s := h
    exact ⟨rfl, rfl⟩
  | take =>
    obtain ⟨p, -, rfl⟩ := mem_map.mp hop'
    exact h.elim
  | drain =>
    rcases mem_append.mp hop' with hop' | hop'
    · obtain ⟨p, -, rfl⟩ := mem_map.mp hop'
      exact h.elim
    · rw [mem_singleton.mp hop'] at h
      exact h.elim
  | testSome =>
    simp only [mem_cons, not_mem_nil, or_false] at hop'
    rcases hop' with rfl | rfl <;> exact h.elim
  | sendFound | sendNotFound | passFound | passNotFound | testNone | connLookup | newSession
  | sendInsert | connect | connNotify | connSet | disNotify =>
    rw [mem_singleton.mp hop'] at h
    exact h.elim
  | write | passPush | push | acceptNotify | disErase => exact (not_mem_nil hop').elim

lemma relayed_next (h : Sound st) (hnext : next st op = some new) (hop' : op' ∈ new)
    (hrel : op'.relayed = some q) (hq : q.dest = .sock s) :
    op.relayed = some q ∨ op = .drain s := by
  cases next_cases hnext with
  | testNone =>
    rw [mem_singleton.mp hop'] at hrel
    exact .inl hrel
  | testSome =>
    simp only [mem_cons, not_mem_nil, or_false] at hop'
    rcases hop' with rfl | rfl
    · cases hrel
    · exact .inl hrel
  | @take s' =>
    obtain ⟨p, hp, rfl⟩ := mem_map.mp hop'
    obtain ⟨a, ha⟩ := h.outCache s' p hp
    obtain rfl : p = q := by simpa [Op.relayed] using hrel
    simp [ha] at hq
  | @drain s' =>
    rcases mem_append.mp hop' with hop' | hop'
    · obtain ⟨p, hp, rfl⟩ := mem_map.mp hop'
      obtain rfl : p = q := by simpa [Op.relayed] using hrel
      rw [h.passCache s' p hp, Dest.sock.injEq] at hq
      exact .inr (by rw [hq])
    · rw [mem_singleton.mp hop'] at hrel
      cases hrel
  | sendFound | sendNotFound | passFound | passNotFound | connLookup | newSession | sendInsert
  | connect | connNotify | connSet | disNotify | acceptInsert =>
    rw [mem_singleton.mp hop'] at hrel
    cases hrel
  | write | passPush | push | acceptNotify | disErase => exact (not_mem_nil hop').elim

lemma mem_threads_exec (hop' : op' ∈ ((exec st op).setOps t (new ++ rest)).threads t') :
    (t' ≠ t ∧ op' ∈ st.threads t') ∨ t' = t ∧ (op' ∈ new ∨ op' ∈ rest) := by
  have hmem := mem_threads_setOps hop'
  rwa [exec_threads, mem_append] at hmem

lemma Incoming.accepts_exec (h : Incoming st) (hth : st.threads t = op :: rest)
    (hnext : next st op = some new) (hop' : op' ∈ ((exec st op).setOps t (new ++ rest)).threads t')
    (hacc : op'.Accepts s) : (t' ≠ t ∧ op' ∈ st.threads t') ∨
    t' = t ∧ rest = [] ∧ new = [.drain s] ∧ op = .acceptInsert s ∧ op' = .drain s := by
  rcases mem_threads_exec hop' with hold | ⟨rfl, hnew | hrest⟩
  · exact .inl hold
  · obtain ⟨rfl, rfl⟩ := accepts_next hnext hnew hacc
    have hrest := h.alone s t' (.acceptInsert s) (by simp [hth]) rfl
    rw [hth] at hrest
    cases hnext
    exact .inr ⟨rfl, by simpa using hrest, rfl, rfl, rfl⟩
  · have halone := h.alone s t' op' (by simp [hth, hrest]) hacc
    rw [hth, List.cons.injEq] at halone
    simp [halone.2] at hrest

lemma Incoming.hasOp_accepts (h : Incoming st) (hth : st.threads t = op :: rest)
    (hnext : next st op = some new)
    (hacc : ((exec st op).setOps t (new ++ rest)).HasOp (Op.Accepts s)) :
    st.HasOp (Op.Accepts s) := by
  obtain ⟨t', op', hop', hacc⟩ := hacc
  rcases h.accepts_exec hth hnext hop' hacc with ⟨-, hold⟩ | ⟨-, -, -, rfl, -⟩
  · exact ⟨t', op', hold, hacc⟩
  · exact ⟨t, .acceptInsert s, by simp [hth], rfl⟩

lemma acceptedDue_exec (st : State) (op : Op) : (exec st op).acceptedDue = st.acceptedDue := by
  cases op <;> rfl

section

variable (h : Incoming st)
include h

lemma Incoming.unwritten_exec (hth : st.threads t = op :: rest) (hnext : next st op = some new)
    (hacc : st.acceptedDue s = true ∨
      ((exec st op).setOps t (new ++ rest)).HasOp (Op.Accepts s)) (hq : q.dest = .sock s) :
    ¬ ((exec st op).setOps t (new ++ rest)).HasOp fun op => op.relayed = some q := by
  rintro ⟨t', op', hop', hrel⟩
  have hbefore := hacc.imp id (h.hasOp_accepts hth hnext)
  have hold : ¬ st.HasOp fun op => op.relayed = some q := h.unwritten s hbefore q hq
  rcases mem_threads_exec hop' with ⟨-, hmem⟩ | ⟨rfl, hnew | hrest⟩
  · exact hold ⟨t', op', hmem, hrel⟩
  · rcases relayed_next h.sound hnext hnew hrel hq with hop | rfl
    · exact hold ⟨t', op, by simp [hth], hop⟩
    · -- the thread moves the packets, so no other one accepts the socket
      have hdrain : Op.drain s ∈ st.threads t' := by simp [hth]
      rcases hacc with hdue | ⟨t'', op'', hop'', hacc⟩
      · exact h.due s hdue ⟨t', .drain s, hdrain, rfl⟩
      · rcases h.accepts_exec hth hnext hop'' hacc with ⟨hne, hmem⟩ | ⟨-, -, -, hop, -⟩
        · exact hne (h.unique s t'' t' op'' hmem (.drain s) hdrain hacc rfl)
        · cases hop
  · exact hold ⟨t', op', by simp [hth, hrest], hrel⟩

lemma Incoming.cached_exec (hth : st.threads t = op :: rest) (hcalm : op.PassCalm st)
    (hnext : next st op = some new) (hcache : (exec st op).passCache s ≠ []) :
    ((exec st op).sock2sess s = false ∧ (exec st op).disaccepted s = false) ∨
      ((exec st op).setOps t (new ++ rest)).HasOp (· = .drain s) := by
  have hne : op ≠ .drain s := by
    rintro rfl
    simp [exec] at hcache
  have hkeep (hc : st.HasOp (· = .drain s)) :
      ((exec st op).setOps t (new ++ rest)).HasOp (· = .drain s) := hasOp_exec hth hc hne new
  cases op with
  | passPush s' p =>
    by_cases hss : s = s'
    · subst hss
      exact hcalm.imp id hkeep
    · exact (h.cached s (by simpa [exec, hss] using hcache)).imp id hkeep
  | drain s' =>
    have hss : s ≠ s' := by
      rintro rfl
      exact hne rfl
    exact (h.cached s (by simpa [exec, hss] using hcache)).imp id hkeep
  | acceptInsert s' =>
    by_cases hss : s = s'
    · subst hss
      cases hnext
      exact .inr (hasOp_setOps_of_mem ⟨.drain s, by simp, rfl⟩)
    · refine (h.cached s hcache).imp (fun hs => ?_) hkeep
      simpa [exec, hss] using hs
  | disErase s' =>
    by_cases hss : s = s'
    · subst hss
      exact .inr (hkeep (hcalm.resolve_left hcache))
    · refine (h.cached s hcache).imp (fun hs => ?_) hkeep
      simpa [exec, hss] using hs
  | _ => exact (h.cached s hcache).imp id hkeep

lemma Incoming.ordered_passPush {s' : ℕ} {p : Packet} (hth : st.threads t = .passPush s' p :: rest)
    (hd : p.dest = .sock s') (s : ℕ) :
    (((exec st (.passPush s' p)).setOps t ([] ++ rest)).channel (.sock s)).Ordered
      Packet.caller := by
  by_cases hss : s = s'
  · subst hss
    refine ordered_push (h.ordered s) hth (opPackets_of_dest rfl hd) (opPackets_of_none rfl) rfl ?_
    simp [cacheOf, exec]
  · have hne : p.dest ≠ .sock s := by simpa [hd, eq_comm] using hss
    refine ordered_same (h.ordered s) hth rfl ?_ (opPackets_of_dest_ne rfl hne).symm rfl
    simp [cacheOf, exec, hss]

lemma Incoming.ordered_drain {s' : ℕ} (hth : st.threads t = .drain s' :: rest) (s : ℕ) :
    (((exec st (.drain s')).setOps t
      ((((st.passCache s').map fun p => Op.test s' p false) ++ [Op.acceptNotify s']) ++
        rest)).channel (.sock s)).Ordered Packet.caller := by
  have hmem : .drain s' ∈ st.threads t := by simp [hth]
  have hheld : opPackets Op.held (.sock s)
      (((st.passCache s').map fun p => Op.test s' p false) ++ [Op.acceptNotify s']) = [] := by
    rw [opPackets_append, opPackets_map_none fun _ => rfl]
    rfl
  have hrelayed : opPackets Op.relayed (.sock s)
      (((st.passCache s').map fun p => .test s' p false) ++ [.acceptNotify s'])
        = packetsFor (.sock s) (st.passCache s') := by
    rw [opPackets_append, opPackets_map_some fun _ => rfl]
    exact append_nil _
  by_cases hss : s = s'
  · subst hss
    refine ordered_take (h.ordered s) hth rfl rfl rfl ?_ hheld ?_ (.inr fun t' => ?_)
    · simp [cacheOf, exec]
    · rw [hrelayed]
      exact packetsFor_eq_self (h.sound.passCache s)
    · -- `on_Accepted` moves the packets of a socket once
      refine eq_nil_iff_forall_not_mem.mpr fun q hq => ?_
      obtain ⟨hqd, op', hop', hrel⟩ := mem_opPackets.mp hq
      exact h.unwritten s (.inr ⟨t, .drain s, hmem, rfl⟩) q hqd ⟨t', op', hop', hrel⟩
  · refine ordered_same (h.ordered s) hth rfl ?_ hheld ?_
    · simp [cacheOf, exec, hss]
    · rw [hrelayed]
      refine packetsFor_eq_nil fun q hq => ?_
      simpa [h.sound.passCache s' q hq, eq_comm] using hss

lemma Incoming.ordered_exec (hth : st.threads t = op :: rest) (hcalm : op.PassCalm st)
    (hnext : next st op = some new) (s : ℕ) :
    (((exec st op).setOps t (new ++ rest)).channel (.sock s)).Ordered Packet.caller := by
  have hmem : op ∈ st.threads t := by simp [hth]
  have hsound := h.sound.ops t op hmem
  have hord := h.ordered s
  cases next_cases hnext with
  | sendFound | sendNotFound | passFound | passNotFound | testNone | testSome | connLookup
  | newSession | sendInsert | connect | connNotify | connSet | acceptInsert | acceptNotify
  | disNotify | disErase => exact ordered_same hord hth rfl rfl rfl rfl
  | passPush => exact h.ordered_passPush hth hsound s
  | @push s' p own =>
    obtain ⟨⟨a, ha⟩, rfl⟩ := hsound
    have hne : p.dest ≠ .sock s := by simp [ha]
    exact ordered_same hord hth rfl rfl (opPackets_of_dest_ne rfl hne).symm rfl
  | @write s' e p own he =>
    refine ordered_write hord hth he (fun hown hd q hq hqp => ?_) fun hown hd q hqp hqd => ?_
    · subst hown
      exact (hcalm s hd q hqp (h.sound.passCache s q hq)).1 hq
    · subst hown
      exact (hcalm s hd q hqp hqd).2
  | @take s' =>
    refine ordered_same hord hth rfl rfl (opPackets_map_none (fun _ => rfl) _) ?_
    rw [opPackets_map_some fun _ => rfl]
    refine packetsFor_eq_nil fun q hq => ?_
    obtain ⟨a, ha⟩ := h.sound.outCache s' q hq
    simp [ha]
  | drain => exact h.ordered_drain hth s

lemma incoming_exec (hth : st.threads t = op :: rest) (hcalm : op.PassCalm st)
    (hnext : next st op = some new) (hsound : Sound ((exec st op).setOps t (new ++ rest))) :
    Incoming ((exec st op).setOps t (new ++ rest)) where
  sound := hsound
  alone s t' op' hop' hacc := by
    rcases h.accepts_exec hth hnext hop' hacc with ⟨hne, hold⟩ | ⟨rfl, rfl, rfl, -, rfl⟩
    · rw [setOps_threads, update_of_ne hne, exec_threads]
      exact h.alone s t' op' hold hacc
    · rw [setOps_threads, update_self]
      rfl
  unique s t₁ t₂ op₁ h₁ op₂ h₂ hacc₁ hacc₂ := by
    have hold (t' : ℕ) (op' : Op) (h' : op' ∈ ((exec st op).setOps t (new ++ rest)).threads t')
        (hacc : op'.Accepts s) : ∃ op'' ∈ st.threads t', op''.Accepts s := by
      rcases h.accepts_exec hth hnext h' hacc with ⟨-, hold⟩ | ⟨rfl, -, -, rfl, -⟩
      · exact ⟨op', hold, hacc⟩
      · exact ⟨.acceptInsert s, by simp [hth], rfl⟩
    obtain ⟨op₁', h₁', hacc₁'⟩ := hold t₁ op₁ h₁ hacc₁
    obtain ⟨op₂', h₂', hacc₂'⟩ := hold t₂ op₂ h₂ hacc₂
    exact h.unique s t₁ t₂ op₁' h₁' op₂' h₂' hacc₁' hacc₂'
  due s hs hacc := h.due s (acceptedDue_exec st op ▸ hs) (h.hasOp_accepts hth hnext hacc)
  unwritten s hacc q hq :=
    h.unwritten_exec hth hnext (hacc.imp (fun hs => acceptedDue_exec st op ▸ hs) id) hq
  cached s hs := h.cached_exec hth hcalm hnext hs
  ordered := h.ordered_exec hth hcalm hnext

end

variable {submitted : List Packet} {connects : List (Msockaddr × ℕ)} {due disdue : ℕ → Bool}

lemma Incoming.start (h : Incoming st) {st₁ : State} (hstart : st₁.start t op = some st')
    (hst₁ : st₁ = { st with submitted, connects, acceptedDue := due, disacceptedDue := disdue })
    (hsound : Sound st') (hdue : ∀ s, due s = true → st.acceptedDue s = true)
    (hacc : ∀ s, op.Accepts s → st.acceptedDue s = true ∧ due s = false)
    (hrel : op.relayed = none)
    (hord : st₁.threads t = [] →
      ∀ s, ((st₁.setOps t [op]).channel (.sock s)).Ordered Packet.caller) : Incoming st' := by
  obtain ⟨hth, rfl⟩ := start_eq_some.mp hstart
  have hmem {t' : ℕ} {op' : Op} (hop' : op' ∈ (st₁.setOps t [op]).threads t') :
      (t' ≠ t ∧ op' ∈ st.threads t') ∨ t' = t ∧ op' = op := by
    have hmem := mem_threads_setOps hop'
    rwa [hst₁, mem_singleton] at hmem
  -- who accepts a socket now accepted it before, or the notice has just been delivered
  have hbefore {s : ℕ} (hs : due s = true ∨ (st₁.setOps t [op]).HasOp (Op.Accepts s)) :
      st.acceptedDue s = true ∨ st.HasOp (Op.Accepts s) := by
    rcases hs with hs | ⟨t', op', hop', hacc'⟩
    · exact .inl (hdue s hs)
    · rcases hmem hop' with ⟨-, hold⟩ | ⟨-, rfl⟩
      · exact .inr ⟨t', op', hold, hacc'⟩
      · exact .inl (hacc s hacc').1
  subst hst₁
  refine
    { sound := hsound
      alone := fun s t' op' hop' hacc' => ?_
      unique := fun s t₁ t₂ op₁ h₁ op₂ h₂ hacc₁ hacc₂ => ?_
      due := ?_
      unwritten := fun s hs q hq => ?_
      cached := fun s hs => ?_
      ordered := hord hth }
  · rcases hmem hop' with ⟨hne, hold⟩ | ⟨rfl, rfl⟩
    · rw [setOps_threads, update_of_ne hne]
      exact h.alone s t' op' hold hacc'
    · rw [setOps_threads, update_self]
  · rcases hmem h₁ with ⟨-, hold₁⟩ | ⟨ht₁, rfl⟩ <;> rcases hmem h₂ with ⟨-, hold₂⟩ | ⟨ht₂, rfl⟩
    · exact h.unique s t₁ t₂ op₁ hold₁ op₂ hold₂ hacc₁ hacc₂
    · exact absurd ⟨t₁, op₁, hold₁, hacc₁⟩ (h.due s (hacc s hacc₂).1)
    · exact absurd ⟨t₂, op₂, hold₂, hacc₂⟩ (h.due s (hacc s hacc₁).1)
    · exact ht₁.trans ht₂.symm
  · rintro s hs ⟨t', op', hop', hacc'⟩
    rcases hmem hop' with ⟨-, hold⟩ | ⟨-, rfl⟩
    · exact h.due s (hdue s hs) ⟨t', op', hold, hacc'⟩
    · exact Bool.false_ne_true ((hacc s hacc').2.symm.trans hs)
  · rintro ⟨t', op', hop', hrel'⟩
    rcases hmem hop' with ⟨-, hold⟩ | ⟨-, rfl⟩
    · exact h.unwritten s (hbefore hs) q hq ⟨t', op', hold, hrel'⟩
    · simp [hrel] at hrel'
  · exact (h.cached s hs).imp id (hasOp_start hth)

lemma accepted_of_relayed (hop : op.Sound st) (hrel : op.relayed = some q)
    (hq : q.dest = .sock s) : st.Accepted s := by
  cases op with
  | test s' p own | write s' p own =>
    cases own with
    | true => cases hrel
    | false =>
      obtain rfl : p = q := by simpa [Op.relayed] using hrel
      obtain ⟨rfl, hacc⟩ := hop.1 s hq
      exact hacc
  | push s' p own =>
    obtain rfl : own = true := hop.2
    cases hrel
  | _ => cases hrel

lemma Incoming.accept (h : Incoming st) (hs : step st .accept = some st') : Incoming st' := by
  have hsound := h.sound.step hs
  cases hs
  have hnone := h.sound.fresh st.nextSocketId (le_refl _)
  have hunknown : ¬ st.HasOp (Op.Accepts st.nextSocketId) := by
    rintro ⟨t, op, hop, hacc⟩
    have hmade := h.sound.ops t op hop
    cases op with
    | acceptInsert s =>
      obtain rfl : s = st.nextSocketId := hacc
      exact absurd hmade (by simp [Op.Sound, hnone])
    | drain s =>
      obtain rfl : s = st.nextSocketId := hacc
      exact absurd hmade.madeFor (by simp [hnone])
    | _ => exact hacc
  refine
    { sound := hsound
      alone := h.alone
      unique := h.unique
      due := fun s hs => ?_
      unwritten := fun s hs q hq => ?_
      cached := h.cached
      ordered := h.ordered }
  · by_cases hss : s = st.nextSocketId
    · rw [hss]
      exact hunknown
    · exact h.due s (by simpa [hss] using hs)
  · by_cases hss : s = st.nextSocketId
    · subst hss
      rintro ⟨t, op, hop, hrel⟩
      exact absurd (accepted_of_relayed (h.sound.ops t op hop) hrel hq).madeFor (by simp [hnone])
    · exact h.unwritten s (hs.imp (fun hs => by simpa [hss] using hs) id) q hq

theorem Incoming.step {a : Action} (h : Incoming st) (hcalm : PassCalm st a)
    (hs : step st a = some st') : Incoming st' := by
  have hsound := h.sound.step hs
  cases a with
  | sendPacket t a buf | passPacket t s buf =>
    exact h.start hs rfl hsound (fun _ => id) (fun _ => False.elim) rfl
      fun hth s => ordered_submit (h.ordered s) hth rfl rfl rfl
  | accept => exact h.accept hs
  | accepted t s =>
    rw [Concurrent.step] at hs
    split_ifs at hs with hdue
    refine h.start hs rfl hsound (fun s' hs' => ?_) (fun s' hs' => ?_) rfl
      fun hth s => ordered_start (h.ordered s) hth rfl rfl
    · by_cases hss : s' = s
      · simp [hss] at hs'
      · simpa [hss] using hs'
    · obtain rfl : s = s' := hs'
      exact ⟨hdue, by simp⟩
  | disaccepted t s | connected t a s =>
    rw [Concurrent.step] at hs
    split_ifs at hs
    exact h.start hs rfl hsound (fun _ => id) (fun _ => False.elim) rfl
      fun hth s => ordered_start (h.ordered s) hth rfl rfl
  | exec t =>
    obtain ⟨op, rest, new, hth, hnext, rfl⟩ := h.sound.step_exec hs
    exact incoming_exec h hth (hcalm op (by simp [hth])) hnext hsound

end

/-! ### Once all handlers have returned -/

lemma incoming_initial : Incoming initial where
  sound := sound_initial
  alone _ _ _ hop := by cases hop
  unique _ _ _ _ hop := by cases hop
  due _ hs := by cases hs
  unwritten _ _ _ _ := State.Idle.not_hasOp fun _ => rfl
  cached _ hs := absurd rfl hs
  ordered s := ordered_initial (.sock s)

/-- **Replies are not stranded.** At rest the packets passed to a socket have been written, in
order. -/
theorem passed_packets_written (acts : List Action) (st : State)
    (hcalm : Meets step PassCalm State.initial acts)
    (hrun : run step State.initial acts = some st) (hidle : st.Idle) (s : ℕ) :
    (st.sock2sess s = true → st.passCache s = []) ∧
      (st.disaccepted s = true → st.passCache s = []) ∧ (st.sock2sess s = true → ∀ i,
        st.writtenFor (.sock s) i = (st.submittedTo (.sock s) i).map fun p => (s, p)) := by
  have h : Incoming st := run_invariant Incoming.step incoming_initial hcalm hrun
  have hcached (hne : st.passCache s ≠ []) :
      st.sock2sess s = false ∧ st.disaccepted s = false :=
    (h.cached s hne).resolve_right hidle.not_hasOp
  have hregistered (hs : st.sock2sess s = true) : st.passCache s = [] := by
    by_contra hne
    simp [(hcached hne).1] at hs
  refine ⟨hregistered, fun hs => ?_, fun hs i => ?_⟩
  · by_contra hne
    simp [(hcached hne).2] at hs
  · exact writtenFor_eq (h.ordered s) hidle (hregistered hs)
      (fun e he hd => (h.sound.log e he s hd).1) i

def strandedRun : List Action :=
  [Action.accept, Action.passPacket 1 0 [0#8], Action.exec 1] ++ .accepted 0 0 :: execs 0 3 ++
    [Action.exec 1]

theorem passed_packet_stranded : ∃ st, run step State.initial strandedRun = some st ∧
    st.Idle ∧ st.sock2sess 0 = true ∧ st.passCache 0 = [⟨1, .sock 0, [0#8]⟩] := by
  refine ⟨_, rfl, fun t => ?_, rfl, rfl⟩
  rcases t with _ | _ | t <;> rfl

def drainedRun : List Action :=
  .accept :: .passPacket 1 0 [0#8] :: execs 1 2 ++ .passPacket 2 0 [1#8] :: execs 2 2
    ++ .accepted 0 0 :: execs 0 9

private lemma drainedRun_calm : Meets step PassCalm initial drainedRun := by
  repeat' apply And.intro
  all_goals first
    | trivial
    | (rintro _ ⟨⟩
       first
         | trivial
         | exact .inl ⟨rfl, rfl⟩)

theorem passed_packets_written_drainedRun :
    ∃ st, run step State.initial drainedRun = some st ∧ st.passCache 0 = [] ∧
      ∀ i, st.writtenFor (.sock 0) i = (st.submittedTo (.sock 0) i).map fun p => (0, p) := by
  refine ⟨_, rfl, ?_⟩
  have h := passed_packets_written drainedRun _ drainedRun_calm rfl
    (fun t => by rcases t with _ | _ | _ | t <;> rfl) 0
  exact ⟨h.1 rfl, h.2.2 rfl⟩

end Megatron.Concurrent
