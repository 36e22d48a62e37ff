import Megatron.Library.Channel
import Megatron.Rpc.Interleaving

/-!
The packets for one destination, in the interleaved handlers of the RPC service, as a channel to
which the callers submit. Its cache is `outCache` of a session, or an entry of `passCache`.
-/

namespace Megatron.Concurrent

open Library List Function State Packet Op Channel.Step

def Op.held : Op → Option Packet
  | .sendLookup _ p | .newSession _ p | .sendInsert _ _ p | .connect _ _ p => some p
  | .passLookup _ p | .passPush _ p => some p
  | .test _ p own | .push _ p own | .write _ p own => if own then some p else none
  | _ => none

def Op.relayed : Op → Option Packet
  | .test _ p own | .push _ p own | .write _ p own => if own then none else some p
  | _ => none

def packetsFor (d : Dest) (l : List Packet) : List Packet := l.filter fun p => p.dest = d

def opPackets (f : Op → Option Packet) (d : Dest) (ops : List Op) : List Packet :=
  packetsFor d (ops.filterMap f)

def State.cacheOf (st : State) : Dest → List Packet
  | .addr a =>
    match st.sa2sess a with
    | none => []
    | some s => (st.sess s).outCache
  | .sock s => st.passCache s

def State.channel (st : State) (d : Dest) : Channel ℕ Packet where
  written := packetsFor d (st.log.map Prod.snd)
  taken t := opPackets Op.relayed d (st.threads t)
  cache := st.cacheOf d
  held t := opPackets Op.held d (st.threads t)
  submitted i := (packetsFor d st.submitted).filter fun p => p.caller = i

section

variable {st : State} {t : ℕ} {op : Op} {ops new rest : List Op} {d : Dest} {p : Packet}
  {ps : List Packet}

@[simp] lemma packetsFor_append (l l' : List Packet) :
    packetsFor d (l ++ l') = packetsFor d l ++ packetsFor d l' := filter_append ..

lemma packetsFor_singleton (hd : p.dest = d) : packetsFor d [p] = [p] := by
  simp [packetsFor, hd]

lemma packetsFor_singleton_of_ne (hd : p.dest ≠ d) : packetsFor d [p] = [] := by
  simp [packetsFor, hd]

variable {f : Op → Option Packet} {g : Packet → Op} {l : List Packet}

lemma packetsFor_eq_nil (h : ∀ q ∈ l, q.dest ≠ d) : packetsFor d l = [] := by
  simpa [packetsFor, filter_eq_nil_iff] using h

lemma packetsFor_eq_self (h : ∀ q ∈ l, q.dest = d) : packetsFor d l = l := by
  simpa [packetsFor, filter_eq_self] using h

@[simp] lemma opPackets_nil (f : Op → Option Packet) : opPackets f d [] = [] := rfl

@[simp] lemma opPackets_append (f : Op → Option Packet) (ops ops' : List Op) :
    opPackets f d (ops ++ ops') = opPackets f d ops ++ opPackets f d ops' := by
  simp [opPackets]

lemma opPackets_cons (f : Op → Option Packet) (op : Op) (ops : List Op) :
    opPackets f d (op :: ops) = opPackets f d [op] ++ opPackets f d ops :=
  opPackets_append f [op] ops

lemma opPackets_of_none (h : f op = none) : opPackets f d [op] = [] := by
  simp [opPackets, packetsFor, h]

lemma opPackets_of_dest (h : f op = some p) (hd : p.dest = d) : opPackets f d [op] = [p] := by
  simp [opPackets, packetsFor, h, hd]

lemma opPackets_of_dest_ne (h : f op = some p) (hd : p.dest ≠ d) : opPackets f d [op] = [] := by
  simp [opPackets, packetsFor, h, hd]

lemma opPackets_map_none (h : ∀ p, f (g p) = none)
    (l : List Packet) : opPackets f d (l.map g) = [] := by
  simp [opPackets, packetsFor, h]

lemma opPackets_map_some (h : ∀ p, f (g p) = some p)
    (l : List Packet) : opPackets f d (l.map g) = packetsFor d l := by
  have hfg : f ∘ g = some := funext h
  rw [opPackets, filterMap_map, hfg, filterMap_some]

lemma mem_opPackets : p ∈ opPackets f d ops ↔ p.dest = d ∧ ∃ op ∈ ops, f op = some p := by
  simp [opPackets, packetsFor, and_comm]

lemma channel_setOps (st : State) (t : ℕ) (ops : List Op) (d : Dest) :
    (st.setOps t ops).channel d = { st.channel d with
      taken := update (st.channel d).taken t (opPackets relayed d ops)
      held := update (st.channel d).held t (opPackets Op.held d ops) } := by
  have hupdate (f : Op → Option Packet) :
      (fun t' => opPackets f d (update st.threads t ops t'))
        = update (fun t' => opPackets f d (st.threads t')) t (opPackets f d ops) := by
    funext t'
    exact apply_update (fun _ => opPackets f d) st.threads t ops t'
  simp only [channel, State.setOps_threads, hupdate]
  rfl

lemma taken_of_threads (hth : st.threads t = op :: rest) (hop : opPackets relayed d [op] = ps) :
    (st.channel d).taken t = ps ++ opPackets relayed d rest := by
  rw [← hop, ← opPackets_cons, ← hth]
  rfl

lemma held_of_threads (hth : st.threads t = op :: rest) (hop : opPackets held d [op] = ps) :
    (st.channel d).held t = ps ++ opPackets held d rest := by
  rw [← hop, ← opPackets_cons, ← hth]
  rfl

lemma channel_exec (st : State) (op : Op) (t : ℕ) (new rest : List Op) (d : Dest) :
    ((exec st op).setOps t (new ++ rest)).channel d =
      { written := packetsFor d ((exec st op).log.map Prod.snd)
        taken := update (st.channel d).taken t
          (opPackets relayed d new ++ opPackets relayed d rest)
        cache := (exec st op).cacheOf d
        held := update (st.channel d).held t
          (opPackets Op.held d new ++ opPackets Op.held d rest)
        submitted := (st.channel d).submitted } := by
  rw [channel_setOps]
  simp only [channel, exec_threads, exec_submitted, opPackets_append]

lemma log_write {s e : ℕ} (hesi : (st.sess s).esi = some e) (own : Bool) :
    packetsFor d ((exec st (.write s p own)).log.map Prod.snd)
      = packetsFor d (st.log.map Prod.snd) ++ packetsFor d [p] := by
  simp [exec, hesi]

section

variable (h : (st.channel d).Ordered caller) (hth : st.threads t = op :: rest)

include h hth

lemma ordered_same
    (hlog : packetsFor d ((exec st op).log.map Prod.snd) = packetsFor d (st.log.map Prod.snd))
    (hcache : (exec st op).cacheOf d = st.cacheOf d)
    (hheld : opPackets held d new = opPackets held d [op])
    (hrelayed : opPackets relayed d new = opPackets relayed d [op]) :
    (((exec st op).setOps t (new ++ rest)).channel d).Ordered caller := by
  rw [channel_exec, hlog, hcache, hrelayed, hheld, ← taken_of_threads hth rfl,
    ← held_of_threads hth rfl, update_eq_self, update_eq_self]
  exact h

lemma ordered_push
    (hheld : opPackets held d [op] = [p]) (hrelayed : opPackets relayed d [op] = [])
    (hlog : packetsFor d ((exec st op).log.map Prod.snd) = packetsFor d (st.log.map Prod.snd))
    (hcache : (exec st op).cacheOf d = st.cacheOf d ++ [p]) :
    (((exec st op).setOps t ([] ++ rest)).channel d).Ordered caller := by
  have htaken := taken_of_threads hth hrelayed
  have hheld' := held_of_threads hth hheld
  rw [channel_exec, opPackets_nil, ← htaken, update_eq_self, hlog, hcache]
  exact h.step (push hheld')

lemma ordered_take
    (hheld : opPackets held d [op] = []) (hrelayed : opPackets relayed d [op] = [])
    (hlog : packetsFor d ((exec st op).log.map Prod.snd) = packetsFor d (st.log.map Prod.snd))
    (hcache : (exec st op).cacheOf d = []) (hnew : opPackets held d new = [])
    (hnew' : opPackets relayed d new = st.cacheOf d)
    (hcalm : st.cacheOf d = [] ∨ ∀ t, (st.channel d).taken t = []) :
    (((exec st op).setOps t (new ++ rest)).channel d).Ordered caller := by
  have htaken := taken_of_threads hth hrelayed
  have hheld' := held_of_threads hth hheld
  rw [nil_append] at htaken
  rw [channel_exec, hnew, hnew', ← htaken, ← hheld', update_eq_self, hlog, hcache]
  exact h.step (take hcalm)

lemma ordered_relay
    (hheld : opPackets held d [op] = []) (hrelayed : opPackets relayed d [op] = [p])
    (hlog : packetsFor d ((exec st op).log.map Prod.snd)
      = packetsFor d (st.log.map Prod.snd) ++ [p])
    (hcache : (exec st op).cacheOf d = st.cacheOf d) :
    (((exec st op).setOps t ([] ++ rest)).channel d).Ordered caller := by
  have htaken := taken_of_threads hth hrelayed
  have hheld' := held_of_threads hth hheld
  rw [channel_exec, opPackets_nil, opPackets_nil, ← hheld', update_eq_self, hlog, hcache]
  exact h.step (relay htaken)

lemma ordered_direct
    (hheld : opPackets held d [op] = [p]) (hrelayed : opPackets relayed d [op] = [])
    (hlog : packetsFor d ((exec st op).log.map Prod.snd)
      = packetsFor d (st.log.map Prod.snd) ++ [p]) (hcache : (exec st op).cacheOf d = st.cacheOf d)
    (hcached : ∀ q ∈ st.cacheOf d, q.caller ≠ p.caller)
    (htaken : ∀ q, q.caller = p.caller → q.dest = d → ¬ st.HasOp fun op => op.relayed = some q) :
    (((exec st op).setOps t ([] ++ rest)).channel d).Ordered caller := by
  have htaken' := taken_of_threads hth hrelayed
  have hheld' := held_of_threads hth hheld
  have hp : p.caller = t := h.sender_of_held t p (by simp [hheld'])
  rw [channel_exec, opPackets_nil, ← htaken', update_eq_self, hlog, hcache]
  refine h.step (direct hheld' (hp ▸ hcached) fun t' q hq hqt => ?_)
  obtain ⟨hdest, op', hop', hrel⟩ := mem_opPackets.mp hq
  exact htaken q (hqt.trans hp.symm) hdest ⟨t', op', hop', hrel⟩

end

lemma ordered_write {s e : ℕ} {own : Bool} (h : (st.channel d).Ordered caller)
    (hth : st.threads t = .write s p own :: rest) (hesi : (st.sess s).esi = some e)
    (hcached : own = true → p.dest = d → ∀ q ∈ st.cacheOf d, q.caller ≠ p.caller)
    (htaken : own = true → p.dest = d → ∀ q, q.caller = p.caller → q.dest = d →
      ¬ st.HasOp fun op => op.relayed = some q) :
    (((exec st (.write s p own)).setOps t ([] ++ rest)).channel d).Ordered caller := by
  have hlog := log_write hesi own (p := p) (d := d)
  have hcache : (exec st (.write s p own)).cacheOf d = st.cacheOf d := by
    cases d <;> rfl
  by_cases hd : p.dest = d
  · rw [packetsFor_singleton hd] at hlog
    cases own with
    | false =>
      exact ordered_relay h hth (opPackets_of_none rfl) (opPackets_of_dest rfl hd) hlog hcache
    | true =>
      exact ordered_direct h hth (opPackets_of_dest rfl hd) (opPackets_of_none rfl) hlog hcache
        (hcached rfl hd) (htaken rfl hd)
  · rw [packetsFor_singleton_of_ne hd, append_nil] at hlog
    cases own with
    | false =>
      refine ordered_same h hth hlog hcache ?_ (opPackets_of_dest_ne rfl hd).symm
      exact (opPackets_of_none rfl).symm
    | true =>
      refine ordered_same h hth hlog hcache (opPackets_of_dest_ne rfl hd).symm ?_
      exact (opPackets_of_none rfl).symm

lemma ordered_start (h : (st.channel d).Ordered caller) (hth : st.threads t = [])
    (hheld : op.held = none) (hrelayed : op.relayed = none) :
    ((st.setOps t [op]).channel d).Ordered caller := by
  have hidle (f : Op → Option Packet) : opPackets f d (st.threads t) = [] := by
    rw [hth, opPackets_nil]
  rw [channel_setOps, opPackets_of_none hheld, opPackets_of_none hrelayed]
  have htaken : update (st.channel d).taken t [] = (st.channel d).taken :=
    update_eq_self_iff.mpr (hidle relayed).symm
  have hheld' : update (st.channel d).held t [] = (st.channel d).held :=
    update_eq_self_iff.mpr (hidle held).symm
  rw [htaken, hheld']
  exact h

lemma ordered_submit (h : (st.channel d).Ordered caller) (hth : st.threads t = [])
    (hheld : op.held = some p) (hrelayed : op.relayed = none) (hp : p.caller = t) :
    (({ st with submitted := st.submitted ++ [p] }.setOps t [op]).channel d).Ordered
      caller := by
  have hidle (f : Op → Option Packet) : opPackets f d (st.threads t) = [] := by
    rw [hth, opPackets_nil]
  have htaken : update (st.channel d).taken t [] = (st.channel d).taken :=
    update_eq_self_iff.mpr (hidle relayed).symm
  have hheld' : (st.channel d).held t = [] := hidle held
  have hchannel : ({ st with submitted := st.submitted ++ [p] } : State).channel d
      = { st.channel d with
          submitted := fun i =>
            (packetsFor d (st.submitted ++ [p])).filter fun q => q.caller = i } := by
    cases d <;> rfl
  rw [channel_setOps, hchannel, opPackets_of_none hrelayed]
  simp only [htaken]
  by_cases hd : p.dest = d
  · have hsub : (fun i => (packetsFor d (st.submitted ++ [p])).filter fun q => q.caller = i)
        = update (st.channel d).submitted t ((st.channel d).submitted t ++ [p]) := by
      funext i
      rw [packetsFor_append, packetsFor_singleton hd, filter_append]
      by_cases hi : i = t
      · subst hi
        simp [channel, hp]
      · have hne : p.caller ≠ i := fun h => hi (h.symm.trans hp)
        simp [channel, hi, hne]
    have hstep := h.step (submit hp)
    rw [hheld', nil_append] at hstep
    rw [opPackets_of_dest hheld hd, hsub]
    exact hstep
  · have hsub : packetsFor d (st.submitted ++ [p]) = packetsFor d st.submitted := by
      rw [packetsFor_append, packetsFor_singleton_of_ne hd, append_nil]
    have hsame : update (st.channel d).held t [] = (st.channel d).held :=
      update_eq_self_iff.mpr hheld'.symm
    rw [opPackets_of_dest_ne hheld hd, hsub, hsame]
    exact h

end

/-! ### What has been written -/

def State.submittedTo (st : State) (d : Dest) (i : ℕ) : List Packet :=
  st.submitted.filter fun p => p.dest = d ∧ p.caller = i

def State.writtenFor (st : State) (d : Dest) (i : ℕ) : List (ℕ × Packet) :=
  st.log.filter fun e => e.2.dest = d ∧ e.2.caller = i

section

variable {st : State} {d : Dest} {s : ℕ}

lemma ordered_initial (d : Dest) : (initial.channel d).Ordered caller := by
  refine ⟨fun _ _ hp => (not_mem_nil hp).elim, 0, fun _ _ => rfl, fun _ => ?_⟩
  cases d <;> rfl

lemma channel_submitted (st : State) (d : Dest) (i : ℕ) :
    (st.channel d).submitted i = st.submittedTo d i := by
  simp only [channel, packetsFor, filter_filter, submittedTo]
  simp [and_comm]

lemma sentBy_written (h : (st.channel d).Ordered caller) (hidle : st.Idle)
    (hcache : st.cacheOf d = []) (i : ℕ) :
    Channel.sentBy caller i (st.channel d).written = st.submittedTo d i := by
  have hops (f : Op → Option Packet) (t : ℕ) : opPackets f d (st.threads t) = [] := by
    rw [hidle t, opPackets_nil]
  rw [← channel_submitted]
  exact h.written_eq (hops relayed) hcache (hops held i)

lemma exists_log_of_submitted (h : (st.channel d).Ordered caller) (hidle : st.Idle)
    (hcache : st.cacheOf d = []) {p : Packet} (hp : p ∈ st.submitted) (hd : p.dest = d) :
    ∃ e ∈ st.log, e.2 = p := by
  have hsub : p ∈ st.submittedTo d p.caller := by
    simp [submittedTo, hp, hd]
  rw [← sentBy_written h hidle hcache] at hsub
  have hwritten : p ∈ (st.channel d).written := mem_of_mem_filter hsub
  exact mem_map.mp (mem_of_mem_filter hwritten)

lemma writtenFor_eq (h : (st.channel d).Ordered caller) (hidle : st.Idle)
    (hcache : st.cacheOf d = []) (hlog : ∀ e ∈ st.log, e.2.dest = d → e.1 = s) (i : ℕ) :
    st.writtenFor d i = (st.submittedTo d i).map fun p => (s, p) := by
  have hpackets : (st.writtenFor d i).map Prod.snd = st.submittedTo d i := by
    rw [← sentBy_written h hidle hcache, Channel.sentBy, channel, packetsFor,
      filter_filter, filter_map]
    simp [writtenFor, comp_def, and_comm]
  have hsock (e : ℕ × Packet) (he : e ∈ st.writtenFor d i) : e = (s, e.2) := by
    simp only [writtenFor, mem_filter, decide_eq_true_eq] at he
    exact Prod.ext (hlog e he.1 he.2.1) rfl
  calc st.writtenFor d i
      = (st.writtenFor d i).map fun e => (s, e.2) := (map_id _).symm.trans (map_congr_left hsock)
    _ = ((st.writtenFor d i).map Prod.snd).map fun p => (s, p) := by
        rw [map_map]
        rfl
    _ = (st.submittedTo d i).map fun p => (s, p) := by rw [hpackets]

end

end Megatron.Concurrent
