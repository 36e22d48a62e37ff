import Megatron.Rpc.Channels
import Megatron.Rpc.Soundness

/-!
Packets sent to an address, in every interleaving of `on_SendPacket` and `on_Connected`: at rest
they are written, in order (`Outgoing.step`, `sent_packets_written`).
-/

namespace Megatron.Concurrent

open Library List Function Option State

/-- The table is ordered, and no other thread is at work on what the operation uses. -/
def Op.SendCalm (st : State) : Op → Prop
  | .sendLookup a _ => a.OrderedIn st.sa2sess
  -- nobody else has made a session for the address
  | .sendInsert a _ _ => st.sa2sess a = none ∧ a.OrderedIn st.sa2sess
  -- the connection has not been made since the test, or the cache is still to be flushed
  | .push s _ _ => (st.sess s).esi = none ∨ st.HasOp (· = .take s)
  -- nobody is still writing what was taken before
  | .take s => (st.sess s).outCache = [] ∨ ∀ q, ¬ st.HasOp (· = .write s q false)
  -- no earlier packet of the caller is still cached or being written
  | .write s p true => ∀ a, p.dest = .addr a → ∀ q, q.caller = p.caller → q.dest = p.dest →
      q ∉ (st.sess s).outCache ∧ ¬ st.HasOp (· = .write s q false)
  | _ => True

def SendCalm (st : State) : Action → Prop
  | .exec t => ∀ op ∈ (st.threads t).head?, op.SendCalm st
  | _ => True

def Op.Outgoing (st : State) : Op → Prop
  | .connect a s _ | .connLookup a s => st.sa2sess a = some s
  | .test s p _ | .push s p _ => ∀ a, p.dest = .addr a → st.sa2sess a = some s
  | .write s p _ => (∀ a, p.dest = .addr a → st.sa2sess a = some s) ∧ (st.sess s).esi = some s
  | .take s => (st.sess s).esi = some s
  | .connNotify session s | .connSet session s => session = s
  | _ => True

def Op.Connecting (a : Msockaddr) (s : ℕ) : Op → Prop
  | .connect a' s' _ | .connLookup a' s' => a' = a ∧ s' = s
  | .connNotify session s' | .connSet session s' => session = s ∧ s' = s
  | _ => False

structure Outgoing (st : State) : Prop where
  sound : Sound st
  ops : ∀ t, ∀ op ∈ st.threads t, op.Outgoing st
  connects : ∀ a s, (a, s) ∈ st.connects → st.sa2sess a = some s
  esi : ∀ s e, (st.sess s).esi = some e → e = s
  outCache : ∀ s, ∀ p ∈ (st.sess s).outCache, ∀ a, p.dest = .addr a → st.sa2sess a = some s
  log : ∀ e ∈ st.log, ∀ a, e.2.dest = .addr a →
    st.sa2sess a = some e.1 ∧ (st.sess e.1).esi = some e.1
  waiting : ∀ a s, st.sa2sess a = some s → (st.sess s).esi = none →
    (a, s) ∈ st.connects ∨ st.HasOp (Op.Connecting a s)
  flushing : ∀ s, (st.sess s).outCache ≠ [] →
    (st.sess s).esi = none ∨ st.HasOp (· = .take s)
  ordered : ∀ a, (st.channel (.addr a)).Ordered Packet.caller

structure Keeps (st st' : State) : Prop where
  table : ∀ {a s}, st.sa2sess a = some s → st'.sa2sess a = some s
  esi : ∀ {s}, (st.sess s).esi = some s → (st'.sess s).esi = some s

section

variable {st st' : State} {t : ℕ} {op : Op} {new rest : List Op}

lemma Op.Outgoing.mono (h : Keeps st st') (hop : op.Outgoing st) : op.Outgoing st' := by
  cases op with
  | connect a s p | connLookup a s => exact h.table hop
  | test s p own | push s p own => exact fun a ha => h.table (hop a ha)
  | write s p own => exact ⟨fun a ha => h.table (hop.1 a ha), h.esi hop.2⟩
  | take s => exact h.esi hop
  | _ => exact hop

lemma esi_exec (hop : op.Outgoing st) (s : ℕ) :
    ((exec st op).sess s).esi = (st.sess s).esi ∨ ((exec st op).sess s).esi = some s := by
  cases op with
  | push s' p own | take s' | acceptInsert s' =>
    by_cases hss : s = s'
    · subst hss
      simp [exec]
    · simp [exec, hss]
  | connSet session s' =>
    obtain rfl : session = s' := hop
    by_cases hss : s = session
    · subst hss
      simp [exec]
    · simp [exec, hss]
  | _ => exact .inl rfl

lemma outCache_exec (st : State) (op : Op) (s : ℕ) :
    ((exec st op).sess s).outCache = (st.sess s).outCache ∨ ((exec st op).sess s).outCache = [] ∨
    ∃ p own, op = .push s p own ∧ ((exec st op).sess s).outCache = (st.sess s).outCache ++ [p] := by
  cases op with
  | push s' p own =>
    by_cases hss : s = s'
    · subst hss
      exact .inr (.inr ⟨p, own, rfl, by simp [exec]⟩)
    · simp [exec, hss]
  | take s' | acceptInsert s' | connSet s' s'' =>
    by_cases hss : s = s'
    · subst hss
      simp [exec]
    · simp [exec, hss]
  | _ => exact .inl rfl

lemma keeps_exec (hop : op.Outgoing st) : Keeps st (exec st op) := by
  refine ⟨fun {a s} hs => ?_, fun {s} hs => (esi_exec hop s).elim (fun h => h.trans hs) id⟩
  cases op with
  | sendInsert a' s' p => exact insertNew_of_some hs
  | _ => exact hs

lemma outgoing_next (h : Outgoing st) (hsound : op.Sound st) (hop : op.Outgoing st)
    (hcalm : op.SendCalm st) (hnext : next st op = some new) :
    ∀ op' ∈ new, op'.Outgoing (exec st op) := by
  have hkeeps := keeps_exec hop
  cases next_cases hnext with
  | @sendFound a s p hs =>
    refine forall_mem_singleton.mpr fun a' ha' => ?_
    rw [show p.dest = .addr a from hsound, Dest.addr.injEq] at ha'
    exact ha' ▸ hs
  | @sendInsert a s p =>
    refine forall_mem_singleton.mpr ?_
    have hnone : st.sa2sess a = none := hcalm.1
    show insertNew st.sa2sess a s a = some s
    rw [insertNew, hnone]
    exact update_self ..
  | connect =>
    refine forall_mem_singleton.mpr fun a' ha' => ?_
    rw [hsound.1, Dest.addr.injEq] at ha'
    exact ha' ▸ hop
  | @passFound s p =>
    refine forall_mem_singleton.mpr fun a' ha' => ?_
    rw [show p.dest = .sock s from hsound] at ha'
    cases ha'
  | testNone | connNotify => exact forall_mem_singleton.mpr hop
  | @testSome s e p own he =>
    have hes := h.esi s e he
    subst hes
    simp only [forall_mem_cons]
    exact ⟨he, ⟨hop, he⟩, by simp⟩
  | @take s =>
    intro op' hop'
    obtain ⟨p, hp, rfl⟩ := mem_map.mp hop'
    exact ⟨h.outCache s p hp, hkeeps.esi hop⟩
  | @connLookup a session s hs =>
    have heq := (show st.sa2sess a = some s from hop).symm.trans hs
    exact forall_mem_singleton.mpr (Option.some.inj heq).symm
  | @connSet session s =>
    obtain rfl : session = s := hop
    refine forall_mem_singleton.mpr ?_
    simp [Op.Outgoing, exec]
  | @drain s =>
    intro op' hop'
    rcases mem_append.mp hop' with hop' | hop'
    · obtain ⟨p, hp, rfl⟩ := mem_map.mp hop'
      intro a ha
      rw [h.sound.passCache s p hp] at ha
      cases ha
    · rw [mem_singleton.mp hop']
      trivial
  | sendNotFound | passNotFound | newSession | acceptInsert | disNotify =>
    exact forall_mem_singleton.mpr trivial
  | write | passPush | push | acceptNotify | disErase => simp

/-! ### The packets for an address -/

variable {a b : Msockaddr} {s : ℕ} {p q : Packet}

lemma Sound.addr_unique (h : Sound st) (ha : st.sa2sess a = some s) (hb : st.sa2sess b = some s) :
    a = b := by
  have := (h.table a s ha).symm.trans (h.table b s hb)
  simpa using this

lemma cacheOf_addr (ha : st.sa2sess a = some s) : st.cacheOf (.addr a) = (st.sess s).outCache := by
  rw [cacheOf, ha]

lemma cacheOf_addr_congr (hsa : st'.sa2sess = st.sa2sess)
    (hsess : ∀ s, st.sa2sess a = some s → (st'.sess s).outCache = (st.sess s).outCache) :
    st'.cacheOf (.addr a) = st.cacheOf (.addr a) := by
  rw [cacheOf, cacheOf, hsa]
  cases hs : st.sa2sess a with
  | none => rfl
  | some s => exact hsess s hs

lemma Outgoing.dest_of_cached (h : Outgoing st) (ha : st.sa2sess a = some s)
    (hq : q ∈ (st.sess s).outCache) : q.dest = .addr a := by
  obtain ⟨b, hb⟩ := h.sound.outCache s q hq
  rw [hb, h.sound.addr_unique ha (h.outCache s q hq b hb)]

lemma Outgoing.eq_write (h : Outgoing st) (ha : st.sa2sess a = some s) (hop : op ∈ st.threads t)
    (hrel : op.relayed = some q) (hq : q.dest = .addr a) : op = .write s q false := by
  have hsound := h.sound.ops t op hop
  have hout := h.ops t op hop
  cases op with
  | test s' p own =>
    cases own with
    | true => simp [Op.relayed] at hrel
    | false =>
      obtain rfl : p = q := by simpa [Op.relayed] using hrel
      have := hsound.2 rfl
      simp [hq] at this
  | push s' p own =>
    obtain rfl : own = true := hsound.2
    simp [Op.relayed] at hrel
  | write s' p own =>
    cases own with
    | true => simp [Op.relayed] at hrel
    | false =>
      obtain rfl : p = q := by simpa [Op.relayed] using hrel
      have := hout.1 a hq
      rw [ha, Option.some.injEq] at this
      rw [this]
  | _ => simp [Op.relayed] at hrel

lemma Outgoing.outCache_of_unlisted (h : Outgoing st) (hmade : st.madeFor s = some (.addr a))
    (hnone : st.sa2sess a = none) : (st.sess s).outCache = [] := by
  refine eq_nil_iff_forall_not_mem.mpr fun q hq => ?_
  obtain ⟨b, hb⟩ := h.sound.outCache s q hq
  have hs := h.outCache s q hq b hb
  have hab : a = b := by simpa [hmade] using h.sound.table b s hs
  simp [← hab, hnone] at hs

lemma cacheOf_addr_of_ne (hsa : st'.sa2sess = st.sa2sess)
    (hsess : ∀ s' ≠ s, st'.sess s' = st.sess s') (hs : st.sa2sess a ≠ some s) :
    st'.cacheOf (.addr a) = st.cacheOf (.addr a) := by
  refine cacheOf_addr_congr hsa fun s' hs' => ?_
  have hne : s' ≠ s := by
    rintro rfl
    exact hs hs'
  rw [hsess s' hne]

section

variable {st : State} {t : ℕ} {rest : List Op}

lemma Outgoing.ordered_sendInsert (h : Outgoing st)
    (hth : st.threads t = .sendInsert b s p :: rest) (hmade : st.madeFor s = some (.addr b))
    (hnone : st.sa2sess b = none) (a : Msockaddr) :
    (((exec st (.sendInsert b s p)).setOps t ([Op.connect b s p] ++ rest)).channel
      (.addr a)).Ordered Packet.caller := by
  refine ordered_same (h.ordered a) hth rfl ?_ rfl rfl
  by_cases hab : a = b
  · subst hab
    have hempty := h.outCache_of_unlisted hmade hnone
    simp [cacheOf, exec, insertNew, hnone, hempty]
  · have hsa : insertNew st.sa2sess b s a = st.sa2sess a := by
      rw [insertNew]
      split_ifs
      · rfl
      · exact update_of_ne hab ..
    simp only [cacheOf, exec, hsa]

lemma Outgoing.ordered_pushOwn (h : Outgoing st) (hth : st.threads t = .push s p true :: rest)
    (hb : p.dest = .addr b) (hs : st.sa2sess b = some s) (a : Msockaddr) :
    (((exec st (.push s p true)).setOps t ([] ++ rest)).channel (.addr a)).Ordered
      Packet.caller := by
  by_cases hab : b = a
  · subst hab
    refine ordered_push (h.ordered b) hth (opPackets_of_dest rfl hb) (opPackets_of_none rfl) rfl ?_
    have hs' : (exec st (.push s p true)).sa2sess b = some s := hs
    rw [cacheOf_addr hs, cacheOf_addr hs']
    simp [exec]
  · have hne : p.dest ≠ .addr a := by simpa [hb] using hab
    refine ordered_same (h.ordered a) hth rfl ?_ (opPackets_of_dest_ne rfl hne).symm rfl
    exact cacheOf_addr_of_ne rfl (fun s' hs' => update_of_ne hs' ..)
      fun hs' => hab (h.sound.addr_unique hs hs')

lemma Outgoing.ordered_takeCache (h : Outgoing st) (hth : st.threads t = .take s :: rest)
    (hcalm : (Op.take s).SendCalm st) (a : Msockaddr) : (((exec st (.take s)).setOps t
      ((st.sess s).outCache.map (fun p => Op.write s p false) ++ rest)).channel
        (.addr a)).Ordered Packet.caller := by
  have hheld := opPackets_map_none (fun _ => rfl) (st.sess s).outCache (f := Op.held)
    (g := fun p => .write s p false) (d := .addr a)
  have hrelayed := opPackets_map_some (fun _ => rfl) (st.sess s).outCache (f := Op.relayed)
    (g := fun p => .write s p false) (d := .addr a)
  by_cases hs : st.sa2sess a = some s
  · refine ordered_take (h.ordered a) hth rfl rfl rfl ?_ hheld ?_ ?_
    · have hs' : (exec st (.take s)).sa2sess a = some s := hs
      rw [cacheOf_addr hs']
      simp [exec]
    · rw [hrelayed, cacheOf_addr hs]
      exact packetsFor_eq_self fun q hq => h.dest_of_cached hs hq
    · rw [cacheOf_addr hs]
      refine hcalm.imp id fun hwait t' => ?_
      refine eq_nil_iff_forall_not_mem.mpr fun q hq => ?_
      obtain ⟨hqd, op', hop', hrel⟩ := mem_opPackets.mp hq
      exact hwait q ⟨t', op', hop', h.eq_write hs hop' hrel hqd⟩
  · refine ordered_same (h.ordered a) hth rfl ?_ hheld ?_
    · exact cacheOf_addr_of_ne rfl (fun s' hs' => update_of_ne hs' ..) hs
    · rw [hrelayed]
      exact packetsFor_eq_nil fun q hq hqd => hs (h.outCache s q hq a hqd)

lemma Outgoing.ordered_writePacket (h : Outgoing st) {own : Bool}
    (hth : st.threads t = .write s p own :: rest) (hcalm : (Op.write s p own).SendCalm st)
    (htable : ∀ a, p.dest = .addr a → st.sa2sess a = some s)
    (hesi : (st.sess s).esi = some s) (a : Msockaddr) :
    (((exec st (.write s p own)).setOps t ([] ++ rest)).channel (.addr a)).Ordered
      Packet.caller := by
  refine ordered_write (h.ordered a) hth hesi (fun hown hd q hq hqp => ?_)
    fun hown hd q hqp hqd hrel => ?_
  · subst hown
    have hs := htable a hd
    rw [cacheOf_addr hs] at hq
    exact (hcalm a hd q hqp ((h.dest_of_cached hs hq).trans hd.symm)).1 hq
  · subst hown
    obtain ⟨t', op', hop', hrel⟩ := hrel
    exact (hcalm a hd q hqp (hqd.trans hd.symm)).2
      ⟨t', op', hop', h.eq_write (htable a hd) hop' hrel hqd⟩

end

lemma ordered_exec (h : Outgoing st) (hth : st.threads t = op :: rest) (hcalm : op.SendCalm st)
    (hnext : next st op = some new) (a : Msockaddr) :
    (((exec st op).setOps t (new ++ rest)).channel (.addr a)).Ordered Packet.caller := by
  have hmem : op ∈ st.threads t := by simp [hth]
  have hsound := h.sound.ops t op hmem
  have hout := h.ops t op hmem
  have hord := h.ordered a
  cases next_cases hnext with
  | sendFound | sendNotFound | passFound | passNotFound | testNone | testSome | connLookup
  | newSession | connect | connNotify | acceptNotify | disNotify | disErase =>
    exact ordered_same hord hth rfl rfl rfl rfl
  | sendInsert => exact h.ordered_sendInsert hth hsound.2 hcalm.1 a
  | @passPush s p =>
    have hne : p.dest ≠ .addr a := by simp [show p.dest = .sock s from hsound]
    exact ordered_same hord hth rfl rfl (opPackets_of_dest_ne rfl hne).symm rfl
  | push =>
    obtain ⟨⟨b, hb⟩, rfl⟩ := hsound
    exact h.ordered_pushOwn hth hb (hout b hb) a
  | write =>
    obtain ⟨htable, hesi⟩ := hout
    exact h.ordered_writePacket hth hcalm htable hesi a
  | take => exact h.ordered_takeCache hth hcalm a
  | @connSet session s =>
    refine ordered_same hord hth rfl (cacheOf_addr_congr rfl fun s' hs' => ?_) rfl rfl
    by_cases hss : s' = session
    · simp [exec, hss]
    · simp [exec, hss]
  | @acceptInsert s =>
    refine ordered_same hord hth rfl ?_ rfl rfl
    refine cacheOf_addr_of_ne rfl (fun s' hs' => update_of_ne hs' ..) fun hs => ?_
    -- the session of an accepted socket is in no entry of `sa2sess`
    have hmade : st.madeFor s = some (.sock s) := hsound
    simpa [hmade] using h.sound.table a s hs
  | @drain s =>
    refine ordered_same hord hth rfl rfl ?_ ?_
    · rw [opPackets_append, opPackets_map_none fun _ => rfl]
      rfl
    · have hpass : packetsFor (.addr a) (st.passCache s) = [] :=
        packetsFor_eq_nil fun q hq => by simp [h.sound.passCache s q hq]
      rw [opPackets_append, opPackets_map_some fun _ => rfl, hpass]
      rfl

lemma connects_exec (st : State) (op : Op) {x : Msockaddr × ℕ} :
    x ∈ (exec st op).connects ↔ x ∈ st.connects ∨ ∃ p, op = .connect x.1 x.2 p := by
  cases op with
  | connect a s p =>
    simp only [exec, mem_append, mem_singleton, Op.connect.injEq]
    refine or_congr Iff.rfl ⟨?_, ?_⟩
    · rintro rfl
      exact ⟨p, rfl, rfl, rfl⟩
    · rintro ⟨_, rfl, rfl, -⟩
      rfl
  | _ => simp [exec]

lemma waiting_exec (h : Outgoing st) (hth : st.threads t = op :: rest) (hop : op.Outgoing st)
    (hnext : next st op = some new) (hs : (exec st op).sa2sess a = some s)
    (hesi : ((exec st op).sess s).esi = none) : (a, s) ∈ (exec st op).connects ∨
      ((exec st op).setOps t (new ++ rest)).HasOp (Op.Connecting a s) := by
  have hnew (op' : Op) (h' : op' ∈ new) (hc : op'.Connecting a s) :
      ((exec st op).setOps t (new ++ rest)).HasOp (Op.Connecting a s) :=
    hasOp_setOps_of_mem ⟨op', mem_append_left _ h', hc⟩
  by_cases hold : st.sa2sess a = some s
  · have hesi' : (st.sess s).esi = none := by
      rcases esi_exec hop s with h' | h'
      · rw [← h', hesi]
      · rw [hesi] at h'
        cases h'
    rcases h.waiting a s hold hesi' with hc | hc
    · exact .inl ((connects_exec st op).mpr (.inl hc))
    · by_cases hconn : op.Connecting a s
      · cases op with
        | connect a' s' p =>
          obtain ⟨rfl, rfl⟩ := hconn
          exact .inl ((connects_exec st _).mpr (.inr ⟨p, rfl⟩))
        | connLookup a' s' =>
          obtain ⟨rfl, rfl⟩ := hconn
          rw [next, hold] at hnext
          cases hnext
          exact .inr (hnew _ (mem_singleton_self _) ⟨rfl, rfl⟩)
        | connNotify session s' =>
          cases hnext
          exact .inr (hnew _ (mem_singleton_self _) hconn)
        | connSet session s' =>
          obtain ⟨rfl, rfl⟩ := hconn
          simp [exec] at hesi
        | _ => exact hconn.elim
      · exact .inr (hasOp_exec hth hc hconn new)
  · cases op with
    | sendInsert a' s' p =>
      rcases insertNew_eq_some hs with h' | ⟨-, rfl, rfl⟩
      · exact absurd h' hold
      · cases hnext
        exact .inr (hnew _ (mem_singleton_self _) ⟨rfl, rfl⟩)
    | _ => exact absurd hs hold

lemma flushing_exec (h : Outgoing st) (hth : st.threads t = op :: rest) (hop : op.Outgoing st)
    (hcalm : op.SendCalm st) (hnext : next st op = some new)
    (hcache : ((exec st op).sess s).outCache ≠ []) : ((exec st op).sess s).esi = none ∨
      ((exec st op).setOps t (new ++ rest)).HasOp (· = .take s) := by
  have htake : op ≠ .take s := by
    rintro rfl
    simp [exec] at hcache
  rcases outCache_exec st op s with hsame | hnil | ⟨p, own, rfl, -⟩
  · rcases h.flushing s (hsame ▸ hcache) with hesi | hc
    · cases op with
      | connSet session s' =>
        by_cases hss : s = session
        · subst hss
          cases hnext
          exact .inr (hasOp_setOps_of_mem ⟨.take s, by simp, rfl⟩)
        · exact .inl (by simpa [exec, hss] using hesi)
      | acceptInsert s' =>
        by_cases hss : s = s'
        · subst hss
          simp [exec] at hcache
        · exact .inl (by simpa [exec, hss] using hesi)
      | push s' p own | take s' =>
        by_cases hss : s = s'
        · subst hss
          exact .inl (by simpa [exec] using hesi)
        · exact .inl (by simpa [exec, hss] using hesi)
      | _ => exact .inl hesi
    · exact .inr (hasOp_exec hth hc htake new)
  · exact absurd hnil hcache
  · rcases hcalm with hesi | hc
    · exact .inl (by simpa [exec] using hesi)
    · exact .inr (hasOp_exec hth hc htake new)

lemma outgoing_exec (h : Outgoing st) (hth : st.threads t = op :: rest) (hcalm : op.SendCalm st)
    (hnext : next st op = some new) (hsound : Sound ((exec st op).setOps t (new ++ rest))) :
    Outgoing ((exec st op).setOps t (new ++ rest)) := by
  have hmem : op ∈ st.threads t := by simp [hth]
  have hop := h.ops t op hmem
  have hkeeps := keeps_exec hop
  have hkeeps' : Keeps (exec st op) ((exec st op).setOps t (new ++ rest)) := ⟨id, id⟩
  refine
    { sound := hsound
      ops := ?_
      connects := fun a s hs => ?_
      esi := fun s e he => ?_
      outCache := fun s p hp a ha => ?_
      log := fun e he a ha => ?_
      waiting := fun a s hs hesi => waiting_exec h hth hop hnext hs hesi
      flushing := fun s hs => flushing_exec h hth hop hcalm hnext hs
      ordered := ordered_exec h hth hcalm hnext }
  · refine fun t' op' hop' => Op.Outgoing.mono hkeeps' ?_
    refine forall_ops_setOps (P := fun op' => op'.Outgoing (exec st op)) ?_ ?_ t' op' hop'
    · rw [exec_threads]
      exact fun t' op' hop' => (h.ops t' op' hop').mono hkeeps
    · intro op' hop'
      rcases mem_append.mp hop' with hop' | hop'
      · exact outgoing_next h (h.sound.ops t op hmem) hop hcalm hnext op' hop'
      · exact (h.ops t op' (by simp [hth, hop'])).mono hkeeps
  · rcases (connects_exec st op).mp hs with hs | ⟨p, rfl⟩
    · exact hkeeps.table (h.connects a s hs)
    · exact hop
  · rcases esi_exec hop s with hesi | hesi
    · exact h.esi s e (hesi.symm.trans he)
    · exact (Option.some.inj (hesi.symm.trans he)).symm
  · rcases outCache_exec st op s with hsame | hnil | ⟨q, own, rfl, happ⟩
    · exact hkeeps.table (h.outCache s p (hsame ▸ hp) a ha)
    · simp [hnil] at hp
    · simp only [State.setOps_sess, happ, mem_append, mem_singleton] at hp
      rcases hp with hp | rfl
      · exact h.outCache s p hp a ha
      · exact hop a ha
  · have hlog : e ∈ st.log ∨ ∃ p own, op = .write e.1 p own ∧ e.2 = p := by
      cases op with
      | write s p own =>
        simp only [State.setOps_log, exec, hop.2, map_some, toList_some,
          mem_append, mem_singleton] at he
        rcases he with he | rfl
        · exact .inl he
        · exact .inr ⟨p, own, rfl, rfl⟩
      | _ => exact .inl he
    rcases hlog with he | ⟨p, own, rfl, rfl⟩
    · have := h.log e he a ha
      exact ⟨hkeeps.table this.1, hkeeps.esi this.2⟩
    · exact ⟨hop.1 a ha, hop.2⟩

variable {submitted : List Packet} {connects : List (Msockaddr × ℕ)} {due disdue : ℕ → Bool}

lemma Outgoing.start (h : Outgoing st) {st₁ : State} (hstart : st₁.start t op = some st')
    (hst₁ : st₁ = { st with submitted, connects, acceptedDue := due, disacceptedDue := disdue })
    (hsound : Sound st') (hop : op.Outgoing st) (hsub : ∀ x ∈ connects, x ∈ st.connects)
    (hconn : ∀ a s, (a, s) ∈ st.connects → (a, s) ∈ connects ∨ op.Connecting a s)
    (hord : st₁.threads t = [] →
      ∀ a, ((st₁.setOps t [op]).channel (.addr a)).Ordered Packet.caller) : Outgoing st' := by
  obtain ⟨hth, rfl⟩ := start_eq_some.mp hstart
  subst hst₁
  refine
    { sound := hsound
      ops := fun t' op' hop' => ?_
      connects := fun a s hs => h.connects a s (hsub _ hs)
      esi := h.esi
      outCache := h.outCache
      log := h.log
      waiting := fun a s hs hesi => ?_
      flushing := fun s hs => (h.flushing s hs).imp id (hasOp_start hth)
      ordered := hord hth }
  · refine @Op.Outgoing.mono st _ _ ⟨id, id⟩ ?_
    refine forall_ops_setOps (P := fun op' => op'.Outgoing st) h.ops ?_ t' op' hop'
    exact forall_mem_singleton.mpr hop
  · rcases h.waiting a s hs hesi with hc | hc
    · refine (hconn a s hc).imp id fun hc => ?_
      exact hasOp_setOps_of_mem ⟨op, mem_singleton_self _, hc⟩
    · exact .inr (hasOp_start hth hc)

/-- **Every step** of a run that avoids what is to be avoided keeps the invariant. -/
theorem Outgoing.step {a : Action} (h : Outgoing st) (hcalm : SendCalm st a)
    (hs : step st a = some st') : Outgoing st' := by
  have hsound := h.sound.step hs
  cases a with
  | sendPacket t a buf | passPacket t s buf =>
    exact h.start hs rfl hsound trivial (fun _ => id) (fun _ _ => .inl)
      fun hth b => ordered_submit (h.ordered b) hth rfl rfl rfl
  | accept =>
    cases hs
    exact
      { sound := hsound
        ops := fun t op hop => (h.ops t op hop).mono ⟨id, id⟩
        connects := h.connects
        esi := h.esi
        outCache := h.outCache
        log := h.log
        waiting := h.waiting
        flushing := h.flushing
        ordered := h.ordered }
  | accepted t s | disaccepted t s =>
    rw [Concurrent.step] at hs
    split_ifs at hs
    exact h.start hs rfl hsound trivial (fun _ => id) (fun _ _ => .inl)
      fun hth b => ordered_start (h.ordered b) hth rfl rfl
  | connected t a s =>
    rw [Concurrent.step] at hs
    split_ifs at hs with hmem
    refine h.start hs rfl hsound (h.connects a s hmem) (fun _ => mem_of_mem_erase)
      (fun b s' hb => ?_) fun hth b => ordered_start (h.ordered b) hth rfl rfl
    by_cases heq : (b, s') = (a, s)
    · exact .inr (by simpa [Op.Connecting, eq_comm] using heq)
    · exact .inl ((mem_erase_of_ne heq).mpr hb)
  | exec t =>
    obtain ⟨op, rest, new, hth, hnext, rfl⟩ := h.sound.step_exec hs
    exact outgoing_exec h hth (hcalm op (by simp [hth])) hnext hsound

end

/-! ### Once everything has been done -/

lemma outgoing_initial : Outgoing initial where
  sound := sound_initial
  ops _ _ hop := by cases hop
  connects _ _ hs := by cases hs
  esi _ _ he := by cases he
  outCache _ _ hp := by cases hp
  log _ he := by cases he
  waiting _ _ hs := by cases hs
  flushing _ hs := absurd rfl hs
  ordered a := ordered_initial (.addr a)

lemma Outgoing.outCache_eq_nil {st : State} (h : Outgoing st) (hidle : st.Idle)
    (hconn : st.connects = []) (s : ℕ) : (st.sess s).outCache = [] := by
  by_contra hne
  have hesi := (h.flushing s hne).resolve_right hidle.not_hasOp
  obtain ⟨q, hq⟩ := exists_mem_of_ne_nil _ hne
  obtain ⟨a, ha⟩ := h.sound.outCache s q hq
  rcases h.waiting a s (h.outCache s q hq a ha) hesi with hc | hc
  · simp [hconn] at hc
  · exact hidle.not_hasOp hc

/-- **Packets reach the socket.** At rest the packets for an address have been written, in order. -/
theorem sent_packets_written (acts : List Action)
    (st : State) (hcalm : Meets step SendCalm initial acts) (hrun : run step initial acts = some st)
    (hidle : st.Idle) (hconn : st.connects = []) : (∀ s, (st.sess s).outCache = []) ∧ ∀ a,
    (∃ p ∈ st.submitted, p.dest = .addr a) → ∃ s, st.sa2sess a = some s ∧ (st.sess s).esi = some s ∧
    ∀ i, st.writtenFor (.addr a) i = (st.submittedTo (.addr a) i).map fun p => (s, p) := by
  have h : Outgoing st := run_invariant Outgoing.step outgoing_initial hcalm hrun
  have hcaches := h.outCache_eq_nil hidle hconn
  refine ⟨hcaches, fun a ⟨p, hp, hpa⟩ => ?_⟩
  have hcache : st.cacheOf (.addr a) = [] := by
    rw [cacheOf]
    split <;> simp [hcaches]
  -- a packet that was submitted has been written, so there is a session
  obtain ⟨e, he, rfl⟩ := exists_log_of_submitted (h.ordered a) hidle hcache hp hpa
  obtain ⟨hs, hesi⟩ := h.log e he a hpa
  refine ⟨e.1, hs, hesi, writtenFor_eq (h.ordered a) hidle hcache fun e' he' hd => ?_⟩
  exact Option.some.inj ((h.log e' he' a hd).1.symm.trans hs)

def peerAddr : Msockaddr := .inet 1#16 0x0100007F#32

def orphanRun : List Action :=
  [Action.sendPacket 0 peerAddr [0#8], Action.sendPacket 1 peerAddr [1#8], Action.exec 0,
      Action.exec 1]
    ++ execs 0 5 ++ execs 1 5
    ++ .connected 2 peerAddr 0 :: execs 2 5 ++ .connected 2 peerAddr 1 :: execs 2 4

theorem sent_packet_orphaned : ∃ st, run step initial orphanRun = some st ∧ st.Idle ∧ st.connects =
    [] ∧ st.sa2sess peerAddr = some 0 ∧ (st.sess 1).outCache = [⟨1, .addr peerAddr, [1#8]⟩] := by
  refine ⟨_, rfl, fun t => ?_, rfl, rfl, rfl⟩
  rcases t with _ | _ | _ | t <;> rfl

def calmRun : List Action :=
  .sendPacket 0 peerAddr [0#8] :: execs 0 6 ++ .connected 1 peerAddr 0 :: execs 1 5
    ++ .sendPacket 0 peerAddr [1#8] :: execs 0 4

private lemma calmRun_calm : Meets step SendCalm initial calmRun := by
  repeat' apply And.intro
  -- only taking the cache and writing directly need an argument
  all_goals first
    | trivial
    | (rintro _ ⟨⟩
       first
         | trivial
         | rfl
         | exact .inl rfl
         | exact Msockaddr.orderedIn_of_isInet rfl
         | exact ⟨rfl, Msockaddr.orderedIn_of_isInet rfl⟩
         | skip)
  · refine .inr fun q => ?_
    rintro ⟨t, op, hop, rfl⟩
    have hone : t = 1 := by
      rcases t with _ | _ | t
      · cases hop
      · rfl
      · cases hop
    subst hone
    have hop : Op.write 0 q false ∈ [Op.take 0] := hop
    simp at hop
  · intro a ha q hq hqa
    refine ⟨not_mem_nil, ?_⟩
    rintro ⟨t, op, hop, rfl⟩
    have hzero : t = 0 := by
      rcases t with _ | _ | t
      · rfl
      · cases hop
      · cases hop
    subst hzero
    have hop : Op.write 0 q false ∈ [Op.write 0 ⟨0, .addr peerAddr, [1#8]⟩ true] := hop
    simp at hop

theorem sent_packets_written_calmRun :
    ∃ st, run step initial calmRun = some st ∧ (∀ s, (st.sess s).outCache = []) ∧
    ∃ s, st.sa2sess peerAddr = some s ∧ (st.sess s).esi = some s ∧ ∀ i,
    st.writtenFor (.addr peerAddr) i = (st.submittedTo (.addr peerAddr) i).map fun p => (s, p) := by
  refine ⟨_, rfl, ?_⟩
  have h := sent_packets_written calmRun _ calmRun_calm rfl
    (fun t => by rcases t with _ | _ | t <;> rfl) rfl
  exact ⟨h.1, h.2 peerAddr ⟨⟨0, .addr peerAddr, [0#8]⟩, mem_cons_self, rfl⟩⟩

end Megatron.Concurrent
