import Megatron.Rpc.Interleaving

/-!
What holds in every run of the interleaved handlers of the RPC service (`Sound.step`).
-/

namespace Megatron.Concurrent

open Library List Function Option

structure State.Accepted (st : State) (s : ℕ) : Prop where
  madeFor : st.madeFor s = some (.sock s)
  esi : (st.sess s).esi = some s

def Op.Sound (st : State) : Op → Prop
  | .sendLookup a p | .newSession a p => p.dest = .addr a
  | .sendInsert a s p => p.dest = .addr a ∧ st.madeFor s = some (.addr a)
  | .connect a _ p => p.dest = .addr a ∧ (st.sa2sess a).isSome = true
  | .passLookup s p | .passPush s p => p.dest = .sock s
  | .test s p own =>
    (∀ s', p.dest = .sock s' → s' = s ∧ st.Accepted s) ∧ (own = false → p.dest = .sock s)
  | .push _ p own => (∃ a, p.dest = .addr a) ∧ own = true
  | .write s p _ =>
    (∀ s', p.dest = .sock s' → s' = s ∧ st.Accepted s) ∧ (st.sess s).esi.isSome = true
  | .take s => (st.sess s).esi.isSome = true
  | .connLookup a _ => (st.sa2sess a).isSome = true
  | .connNotify session _ | .connSet session _ => ∃ a, st.madeFor session = some (.addr a)
  | .acceptInsert s => st.madeFor s = some (.sock s)
  | .drain s => st.Accepted s
  | .acceptNotify _ | .disNotify _ | .disErase _ => True

def Session.Outgoing (S : Session) : Prop := ∀ p ∈ S.outCache, ∃ a, p.dest = .addr a

structure Sound (st : State) : Prop where
  fresh : ∀ s, st.nextSocketId ≤ s → st.madeFor s = none
  ops : ∀ t, ∀ op ∈ st.threads t, op.Sound st
  table : ∀ a s, st.sa2sess a = some s → st.madeFor s = some (.addr a)
  registered : ∀ s, st.sock2sess s = true → st.Accepted s
  due : ∀ s, st.acceptedDue s = true → st.madeFor s = some (.sock s)
  outCache : ∀ s, (st.sess s).Outgoing
  passCache : ∀ s, ∀ p ∈ st.passCache s, p.dest = .sock s
  connects : ∀ x ∈ st.connects, (st.sa2sess x.1).isSome = true
  log : ∀ e ∈ st.log, ∀ s, e.2.dest = .sock s → e.1 = s ∧ st.Accepted s

structure Grows (st st' : State) : Prop where
  madeFor : ∀ {s d}, st.madeFor s = some d → st'.madeFor s = some d
  accepted : ∀ {s}, st.Accepted s → st'.Accepted s
  table : ∀ {a}, (st.sa2sess a).isSome = true → (st'.sa2sess a).isSome = true
  esi : ∀ {s}, (st.sess s).esi.isSome = true → (st'.sess s).esi.isSome = true

lemma Op.Sound.mono {st st' : State} (h : Grows st st') {op : Op} (hop : op.Sound st) :
    op.Sound st' := by
  cases op with
  | sendInsert a s p => exact ⟨hop.1, h.madeFor hop.2⟩
  | test s p own => exact ⟨fun s' hs' => (hop.1 s' hs').imp id h.accepted, hop.2⟩
  | write s p own => exact ⟨fun s' hs' => (hop.1 s' hs').imp id h.accepted, h.esi hop.2⟩
  | take s => exact h.esi hop
  | connect a s p => exact ⟨hop.1, h.table hop.2⟩
  | connLookup a s => exact h.table hop
  | connNotify | connSet => exact hop.imp fun a ha => h.madeFor ha
  | acceptInsert s => exact h.madeFor hop
  | drain s => exact h.accepted hop
  | _ => exact hop

lemma madeFor_update {st : State} (h : Sound st) {s : ℕ} {d d' : Dest}
    (hs : st.madeFor s = some d) : update st.madeFor st.nextSocketId (some d') s = some d := by
  have hne : s ≠ st.nextSocketId := by
    rintro rfl
    simp [h.fresh _ (le_refl _)] at hs
  rw [update_of_ne hne, hs]

lemma grows_exec {st : State} (h : Sound st) {op : Op} (hop : op.Sound st) :
    Grows st (exec st op) := by
  have hmade {s : ℕ} {d : Dest} (hs : st.madeFor s = some d) : (exec st op).madeFor s = some d := by
    cases op with
    | newSession a p => exact madeFor_update h hs
    | _ => exact hs
  refine ⟨hmade, fun {s} hs => ⟨hmade hs.madeFor, ?_⟩, fun {a} ha => ?_, fun {s} hs => ?_⟩
  -- sessions of connections are not those of accepted sockets
  · cases op with
    | push s' p own | take s' =>
      by_cases hss : s = s'
      · subst hss
        simpa [exec] using hs.esi
      · simpa [exec, hss] using hs.esi
    | acceptInsert s' =>
      by_cases hss : s = s'
      · subst hss
        simp [exec]
      · simpa [exec, hss] using hs.esi
    | connSet session s' =>
      obtain ⟨a, ha⟩ := hop
      have hne : s ≠ session := by
        rintro rfl
        simp [hs.madeFor] at ha
      simpa [exec, hne] using hs.esi
    | _ => exact hs.esi
  · cases op with
    | sendInsert a' s p =>
      obtain ⟨s', hs'⟩ := isSome_iff_exists.mp ha
      exact isSome_iff_exists.mpr ⟨s', insertNew_of_some hs'⟩
    | _ => exact ha
  · cases op with
    | push s' p own | take s' | connSet s' s'' | acceptInsert s' =>
      by_cases hss : s = s'
      · subst hss
        simp [exec, hs]
      · simpa [exec, hss] using hs
    | _ => exact hs

section

variable {st st' : State} {op : Op} {a : Action}

section

variable (h : Sound st)
include h

lemma sound_next (hop : op.Sound st) {new : List Op} (hnew : next st op = some new) :
    ∀ op' ∈ new, op'.Sound (exec st op) := by
  suffices hst : ∀ op' ∈ new, op'.Sound (exec st op) ∨ op'.Sound st from
    fun op' hop' => (hst op' hop').elim id (Op.Sound.mono (grows_exec h hop))
  have haddr {p : Packet} {a : Msockaddr} {P : ℕ → Prop} (hp : p.dest = .addr a) :
      ∀ s', p.dest = .sock s' → P s' := by
    simp [hp]
  cases next_cases hnew with
  | sendFound => exact forall_mem_singleton.mpr (.inr ⟨haddr hop, by simp⟩)
  | sendNotFound | passNotFound | connNotify => exact forall_mem_singleton.mpr (.inr hop)
  | newSession | acceptInsert => exact forall_mem_singleton.mpr (.inl ⟨hop, by simp [exec]⟩)
  | sendInsert => exact forall_mem_singleton.mpr (.inl ⟨hop.1, insertNew_self_isSome ..⟩)
  | connect => exact forall_mem_singleton.mpr (.inr ⟨haddr hop.1, by simp⟩)
  | @passFound s p hreg =>
    refine forall_mem_singleton.mpr (.inr ⟨fun s' hs' => ?_, by simp⟩)
    rw [show p.dest = .sock s from hop, Dest.sock.injEq] at hs'
    exact ⟨hs'.symm, h.registered s hreg⟩
  | @testNone s p own hnone =>
    -- the session of an accepted socket has its `esi` from the beginning
    have hdest : ∃ a, p.dest = .addr a := by
      cases hd : p.dest with
      | addr a => exact ⟨a, rfl⟩
      | sock s' =>
        have hesi := (hop.1 s' hd).2.esi
        simp [hnone] at hesi
    refine forall_mem_singleton.mpr (.inr ⟨hdest, ?_⟩)
    obtain ⟨a, ha⟩ := hdest
    cases own with
    | false => exact absurd (hop.2 rfl) (by simp [ha])
    | true => rfl
  | @testSome s e p own he =>
    have hsome : (st.sess s).esi.isSome = true := by rw [he]; rfl
    simp only [forall_mem_cons]
    exact ⟨.inr hsome, .inr ⟨hop.1, hsome⟩, by simp⟩
  | @take s =>
    intro op' hop'
    obtain ⟨p, hp, rfl⟩ := mem_map.mp hop'
    obtain ⟨a, ha⟩ := h.outCache s p hp
    exact .inr ⟨haddr ha, hop⟩
  | @connLookup a session s hs => exact forall_mem_singleton.mpr (.inr ⟨a, h.table a session hs⟩)
  | @drain s =>
    intro op' hop'
    rcases mem_append.mp hop' with hop' | hop'
    · obtain ⟨p, hp, rfl⟩ := mem_map.mp hop'
      have hdest := h.passCache s p hp
      refine .inr ⟨fun s' hs' => ?_, fun _ => hdest⟩
      rw [hdest, Dest.sock.injEq] at hs'
      exact ⟨hs'.symm, hop⟩
    · rw [mem_singleton.mp hop']
      exact .inr trivial
  | connSet => exact forall_mem_singleton.mpr (.inl (by simp [Op.Sound, exec]))
  | disNotify => exact forall_mem_singleton.mpr (.inr trivial)
  | write | passPush | push | acceptNotify | disErase => simp

lemma fresh_exec {s : ℕ} (hs : (exec st op).nextSocketId ≤ s) : (exec st op).madeFor s = none := by
  cases op with
  | newSession a p =>
    have hne : s ≠ st.nextSocketId := by
      rintro rfl
      exact absurd hs (by simp [exec])
    simp only [exec, update_of_ne hne]
    exact h.fresh s (le_trans (Nat.le_succ _) hs)
  | _ => exact h.fresh s hs

section

variable (hop : op.Sound st)
include hop

lemma table_exec {a : Msockaddr} {s : ℕ} (hs : (exec st op).sa2sess a = some s) :
    (exec st op).madeFor s = some (.addr a) := by
  cases op with
  | sendInsert a' s' p =>
    rcases insertNew_eq_some hs with hold | ⟨-, rfl, rfl⟩
    · exact h.table a s hold
    · exact hop.2
  | newSession => exact (grows_exec h hop).madeFor (h.table a s hs)
  | _ => exact h.table a s hs

lemma registered_exec {s : ℕ} (hs : (exec st op).sock2sess s = true) : (exec st op).Accepted s := by
  have hold (hs : st.sock2sess s = true) : (exec st op).Accepted s :=
    (grows_exec h hop).accepted (h.registered s hs)
  cases op with
  | acceptInsert s' =>
    by_cases hss : s = s'
    · subst hss
      exact ⟨hop, by simp [exec]⟩
    · simp only [exec, update_of_ne hss] at hs
      exact hold hs
  | disErase s' =>
    by_cases hss : s = s'
    · subst hss
      simp [exec] at hs
    · simp only [exec, update_of_ne hss] at hs
      exact hold hs
  | _ => exact hold hs

lemma sess_outgoing_exec (s : ℕ) : ((exec st op).sess s).Outgoing := by
  have hupdate (s' : ℕ) {S : Session} (hS : S.Outgoing) :
      (update st.sess s' S s).Outgoing :=
    (forall_update_iff st.sess fun _ S => S.Outgoing).mpr
      ⟨hS, fun s' _ => h.outCache s'⟩ s
  cases op with
  | push s' p own =>
    refine hupdate s' fun q hq => ?_
    rcases mem_append.mp hq with hq | hq
    · exact h.outCache s' q hq
    · rw [mem_singleton.mp hq]
      exact hop.1
  | take s' | acceptInsert s' => exact hupdate s' (by simp [Session.Outgoing])
  | connSet session s' => exact hupdate session (h.outCache session)
  | _ => exact h.outCache s

lemma passCache_exec (s : ℕ) : ∀ p ∈ (exec st op).passCache s, p.dest = .sock s := by
  have hupdate (s' : ℕ) {l : List Packet} (hl : ∀ p ∈ l, p.dest = .sock s') :
      ∀ p ∈ update st.passCache s' l s, p.dest = .sock s :=
    (forall_update_iff st.passCache fun s l => ∀ p ∈ l, p.dest = .sock s).mpr
      ⟨hl, fun s' _ => h.passCache s'⟩ s
  cases op with
  | passPush s' p =>
    refine hupdate s' fun q hq => ?_
    rcases mem_append.mp hq with hq | hq
    · exact h.passCache s' q hq
    · rw [mem_singleton.mp hq]
      exact hop
  | drain s' => exact hupdate s' (by simp)
  | _ => exact h.passCache s

lemma log_exec {e : ℕ × Packet} (he : e ∈ (exec st op).log) {s : ℕ} (hs : e.2.dest = .sock s) :
    e.1 = s ∧ (exec st op).Accepted s := by
  have hgrows := grows_exec h hop
  have hold (he : e ∈ st.log) : e.1 = s ∧ (exec st op).Accepted s :=
    (h.log e he s hs).imp id hgrows.accepted
  cases op with
  | write s' p own =>
    rcases mem_append.mp he with he | he
    · exact hold he
    · obtain ⟨esi, hesi, rfl⟩ := map_eq_some_iff.mp (mem_toList.mp he)
      obtain ⟨rfl, hacc⟩ := hop.1 s hs
      exact ⟨Option.some.inj (hesi.symm.trans hacc.esi), hgrows.accepted hacc⟩
  | _ => exact hold he

lemma sound_exec : Sound (exec st op) where
  fresh _ hs := fresh_exec h hs
  ops := by
    rw [exec_threads]
    exact fun t op' hop' => (h.ops t op' hop').mono (grows_exec h hop)
  table _ _ hs := table_exec h hop hs
  registered _ hs := registered_exec h hop hs
  due s hs := by
    have hmade := (grows_exec h hop).madeFor (s := s) (d := .sock s)
    cases op <;> exact hmade (h.due s hs)
  outCache := sess_outgoing_exec h hop
  passCache := passCache_exec h hop
  connects x hx := by
    have hgrows := grows_exec h hop
    cases op with
    | connect a s p =>
      rcases mem_append.mp hx with hx | hx
      · exact h.connects x hx
      · rw [mem_singleton.mp hx]
        exact hop.2
    | _ => exact hgrows.table (h.connects x hx)
  log _ he _ hs := log_exec h hop he hs

end

lemma Sound.setOps {t : ℕ} {ops : List Op} (hops : ∀ op ∈ ops, op.Sound st) :
    Sound (st.setOps t ops) := by
  have hgrows : Grows st (st.setOps t ops) := ⟨id, fun hs => ⟨hs.madeFor, hs.esi⟩, id, id⟩
  have hall := forall_ops_setOps h.ops hops (t := t)
  exact
    { fresh := h.fresh
      ops := fun t op hop => (hall t op hop).mono hgrows
      table := h.table
      registered := fun s hs => hgrows.accepted (h.registered s hs)
      due := h.due
      outCache := h.outCache
      passCache := h.passCache
      connects := h.connects
      log := fun e he s hs => (h.log e he s hs).imp id hgrows.accepted }

lemma Sound.of_grows (hgrows : Grows st st')
    (hfresh : ∀ s, st'.nextSocketId ≤ s → st'.madeFor s = none)
    (hthreads : st'.threads = st.threads) (hsa : st'.sa2sess = st.sa2sess)
    (hsock : st'.sock2sess = st.sock2sess) (hsess : st'.sess = st.sess)
    (hpass : st'.passCache = st.passCache) (hlog : st'.log = st.log)
    (hconn : ∀ x ∈ st'.connects, x ∈ st.connects)
    (hdue : ∀ s, st'.acceptedDue s = true → st'.madeFor s = some (.sock s)) : Sound st' where
  fresh := hfresh
  ops := hthreads ▸ fun t op hop => (h.ops t op hop).mono hgrows
  table := hsa ▸ fun a s hs => hgrows.madeFor (h.table a s hs)
  registered := hsock ▸ fun s hs => hgrows.accepted (h.registered s hs)
  due := hdue
  outCache := hsess ▸ h.outCache
  passCache := hpass ▸ h.passCache
  connects := fun x hx => hgrows.table (h.connects x (hconn x hx))
  log := hlog ▸ fun e he s hs => (h.log e he s hs).imp id hgrows.accepted

end

variable {submitted : List Packet} {connects : List (Msockaddr × ℕ)} {due disdue : ℕ → Bool}

lemma Sound.start (h : Sound st) {t : ℕ} (hstart : State.start { st with
      submitted, connects, acceptedDue := due, disacceptedDue := disdue } t op = some st')
    (hop : op.Sound st) (hconn : ∀ x ∈ connects, x ∈ st.connects)
    (hdue : ∀ s, due s = true → st.acceptedDue s = true) : Sound st' := by
  obtain ⟨-, rfl⟩ := start_eq_some.mp hstart
  have hgrows : Grows st { st with
      submitted, connects, acceptedDue := due, disacceptedDue := disdue } :=
    ⟨id, fun hs => ⟨hs.madeFor, hs.esi⟩, id, id⟩
  have hsound := h.of_grows hgrows h.fresh rfl rfl rfl rfl rfl rfl hconn
    fun s hs => hgrows.madeFor (h.due s (hdue s hs))
  exact hsound.setOps (forall_mem_singleton.mpr (hop.mono hgrows))

lemma exists_next (hop : op.Sound st) : ∃ new, next st op = some new := by
  cases op with
  | write s p own =>
    obtain ⟨e, he⟩ := isSome_iff_exists.mp hop.2
    exact ⟨[], by rw [next, he]⟩
  | connLookup a s =>
    obtain ⟨session, hs⟩ := isSome_iff_exists.mp hop
    exact ⟨[.connNotify session s], by rw [next, hs]⟩
  | sendLookup a p => cases h : st.sa2sess a <;> simp [next, h]
  | passLookup s p => cases h : st.sock2sess s <;> simp [next, h]
  | test s p own => cases h : (st.sess s).esi <;> simp [next, h]
  | _ => exact ⟨_, rfl⟩

lemma Sound.step_exec (h : Sound st) {t : ℕ} (hs : step st (.exec t) = some st') :
    ∃ op rest new, st.threads t = op :: rest ∧ next st op = some new ∧
      st' = (exec st op).setOps t (new ++ rest) := by
  obtain ⟨op, rest, hth, rfl⟩ := step_exec_eq_some.mp hs
  obtain ⟨new, hnext⟩ := exists_next (h.ops t op (by simp [hth]))
  exact ⟨op, rest, new, hth, hnext, by rw [hnext, map_some, getD_some]⟩

/-- **Every step keeps** what holds in any run. -/
theorem Sound.step (h : Sound st) (hs : step st a = some st') : Sound st' := by
  cases a with
  | sendPacket t addr buf | passPacket t s buf => exact h.start hs rfl (fun _ => id) fun _ => id
  | accept =>
    rw [Concurrent.step, Option.some.injEq] at hs
    have hgrows : Grows st st' := by
      rw [← hs]
      exact ⟨madeFor_update h, fun hs => ⟨madeFor_update h hs.madeFor, hs.esi⟩, id, id⟩
    subst hs
    refine h.of_grows hgrows (fun s hs => ?_) rfl rfl rfl rfl rfl rfl (fun _ => id)
      fun s hs => ?_
    · have hne : s ≠ st.nextSocketId := by
        rintro rfl
        exact absurd hs (by simp)
      simp only [update_of_ne hne]
      exact h.fresh s (le_trans (Nat.le_succ _) hs)
    · by_cases hne : s = st.nextSocketId
      · simp [hne]
      · simp only [update_of_ne hne] at hs ⊢
        exact h.due s hs
  | accepted t s =>
    rw [Concurrent.step] at hs
    split_ifs at hs with hdue
    refine h.start hs (h.due s hdue) (fun _ => id) fun s' hs' => ?_
    by_cases hss : s' = s
    · simp [hss] at hs'
    · simpa [hss] using hs'
  | disaccepted t s =>
    rw [Concurrent.step] at hs
    split_ifs at hs
    exact h.start hs trivial (fun _ => id) fun _ => id
  | connected t a s =>
    rw [Concurrent.step] at hs
    split_ifs at hs with hmem
    exact h.start hs (h.connects (a, s) hmem) (fun _ => mem_of_mem_erase) fun _ => id
  | exec t =>
    obtain ⟨op, rest, new, hth, hnext, rfl⟩ := h.step_exec hs
    have hops := forall_mem_cons.mp (hth ▸ h.ops t)
    refine (sound_exec h hops.1).setOps fun op' hop' => ?_
    rcases mem_append.mp hop' with hop' | hop'
    · exact sound_next h hops.1 hnext op' hop'
    · exact (hops.2 op' hop').mono (grows_exec h hops.1)

lemma sound_initial : Sound State.initial where
  fresh _ _ := rfl
  ops _ _ hop := by cases hop
  table _ _ hs := by cases hs
  registered _ hs := by cases hs
  due _ hs := by cases hs
  outCache _ _ hp := by cases hp
  passCache _ _ hp := by cases hp
  connects _ hx := by cases hx
  log _ he := by cases he

end

end Megatron.Concurrent
