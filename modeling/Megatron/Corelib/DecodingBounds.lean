import Megatron.Corelib.Decoding

/-!
How far the operators `>>` are bounded by the bytes that they read (`Wire.sparing`), and what is
asked for ahead of them (`Wire.ahead_iff`).
-/

namespace Megatron

open Library List Metered

lemma getPN_snd (b : InBuffer) : (getPN b).2 = b.advance (pnLoop 0#64 b.unread).2 := by
  rw [getPN, getPNFrom]
  rcases pnLoop 0#64 b.unread with ⟨_ | v, n⟩ <;> rfl

lemma getPN_inside : getPN.Inside := by
  refine ⟨fun b => ?_, fun b => ?_, fun b hb => ?_⟩
  · rw [getPN_snd]
    rfl
  · rw [getPN_snd, Cursor.advance_pos]
    omega
  · have hle := pnLoop_le 0#64 b.unread
    rw [Cursor.length_unread] at hle
    rw [getPN_snd, Cursor.advance_pos]
    omega

lemma getPN_takes : getPN.Takes fun _ => 1 := by
  intro b b' v h
  rw [getPN, getPNFrom] at h
  rcases hloop : pnLoop 0#64 b.unread with ⟨_ | w, n⟩
  · rw [hloop] at h
    cases h
  · rw [hloop] at h
    cases h
    exact Nat.add_le_add_left (pnLoop_some hloop).1 b.pos

lemma unpackOr_inside (e : InBuffer → Exn) (size : BitVec 64) : (unpackOr e size).Inside := by
  refine ⟨fun b => ?_, fun b => ?_, fun b hb => ?_⟩ <;> rw [unpackOr] <;> split_ifs with h
  · rfl
  · rfl
  · exact le_rfl
  · exact Nat.le_add_right _ _
  · exact hb
  · rw [remains] at h
    rw [Cursor.advance_pos]
    omega

/-! ### Readers that are bounded, whatever the bytes declare -/

/-- The event stays within the input, and memory is asked for ahead of reading only if `ahead`. -/
def MemoryEvent.Settled (ahead : Prop) (b : InBuffer) : MemoryEvent → Prop
  | .stack _ => ahead
  | .reserve _ => ahead
  | e => b.pos ≤ b.data.length → e.Within b.data.length

def SettledReader {α : Type} (ahead : Prop) (g : Decode α) : Prop :=
  ∀ b, ∀ e ∈ g.trace b, e.Settled ahead b

def stepsPerByte : ℕ := 5

/-- A reader that is bounded by the bytes it reads, whatever they declare. -/
structure Sparing {α : Type} (ahead : Prop) (k : ℕ) (g : Decode α) : Prop where
  inside : g.erase.Inside
  takes : g.erase.Takes fun _ => k
  pays : g.Pays stepsPerByte k 1
  settled : SettledReader ahead g

variable {α γ : Type} {ahead : Prop} {k l : ℕ}

lemma MemoryEvent.Settled.of_inside {e : MemoryEvent} {b b' : InBuffer} (h : e.Settled ahead b')
    (hdata : b'.data = b.data) (hle : b.pos ≤ b.data.length → b'.pos ≤ b.data.length) :
    e.Settled ahead b := by
  rw [← hdata] at hle
  cases e with
  | stack n | reserve n => exact h
  | read pos n | bytes n | elements n => exact fun hb => hdata ▸ h (hle (hdata ▸ hb))

namespace SettledReader

lemma nil {g : Decode α} (h : ∀ b, g.trace b = []) : SettledReader ahead g := by
  intro b e he
  rw [h b] at he
  exact absurd he not_mem_nil

lemma bind {g : Decode α} {f : α → Decode γ} (hg : SettledReader ahead g) (hin : g.erase.Inside)
    (hf : ∀ a, SettledReader ahead (f a)) : SettledReader ahead (g >>= f) := by
  intro b e he
  rcases mem_trace_bind.mp he with he | ⟨a, b', hok, he⟩
  · exact hg b e he
  · refine (hf a b' e he).of_inside ?_ fun hb => ?_
    · have := hin.data b
      rwa [hok] at this
    · have := hin.le b hb
      rwa [hok] at this

end SettledReader

namespace Sparing

lemma pure (a : α) : Sparing ahead 0 (Pure.pure a : Decode α) where
  inside := Reader.Inside.pure a
  takes := Reader.Takes.pure rfl
  pays := Metered.Pays.pure a
  settled := SettledReader.nil fun _ => rfl

lemma fail (x : Exn) : Sparing ahead k (Metered.fail x : Decode α) where
  inside := Reader.Inside.fail x
  takes := Reader.Takes.fail x
  pays := Metered.Pays.fail x zero_le_one
  settled := SettledReader.nil fun _ => rfl

section

variable {g : Decode α} (hg : Sparing ahead k g)
include hg

lemma bind {f : α → Decode γ} (hf : ∀ a, Sparing ahead l (f a)) :
    Sparing ahead (k + l) (g >>= f) where
  inside := by
    rw [erase_bind]
    exact hg.inside.bind fun a => (hf a).inside
  takes := by
    rw [erase_bind]
    exact hg.takes.bind (fun a => (hf a).takes) fun _ => le_rfl
  pays := by
    rw [Nat.cast_add]
    exact hg.pays.bind fun a => (hf a).pays.mono le_rfl (by omega)
  settled := hg.settled.bind hg.inside fun a => (hf a).settled

lemma mono (h : l ≤ k) : Sparing ahead l g :=
  ⟨hg.inside, hg.takes.mono fun _ => h, hg.pays.mono (Nat.cast_le.mpr h) le_rfl, hg.settled⟩

lemma map (f : α → γ) :
    Sparing ahead k (g >>= fun a => Pure.pure (f a)) := hg.bind fun a => Sparing.pure (f a)

end

lemma ite {p : Prop} [Decidable p] {g h : Decode α} (hg : Sparing ahead k g)
    (hh : Sparing ahead k h) : Sparing ahead k (if p then g else h) := by
  split_ifs
  · exact hg
  · exact hh

end Sparing

/-! #### Numbers and strings -/

lemma settled_PN : SettledReader ahead meteredPN := by
  intro b e he
  rw [mem_singleton.mp he]
  intro hb
  have hle := getPN_inside.le b hb
  have hmono := getPN_inside.mono b
  show b.pos + ((getPN b).2.pos - b.pos) ≤ b.data.length
  omega

lemma pays_PN : meteredPN.Pays stepsPerByte 4 1 := by
  refine ⟨fun {b b' v t} h => ?_, fun {b b' x t} h => ?_⟩
  · obtain ⟨hok, rfl⟩ := Prod.mk.inj h
    have htakes : b.pos + 1 ≤ b'.pos := getPN_takes b b' v hok
    rw [length_singleton, stepsPerByte]
    push_cast
    omega
  · obtain ⟨herr, rfl⟩ := Prod.mk.inj h
    have hmono : b.pos ≤ b'.pos := by
      have := getPN_inside.mono b
      rwa [herr] at this
    rw [length_singleton, stepsPerByte]
    push_cast
    omega

lemma sparing_PN : Sparing ahead 1 meteredPN :=
  ⟨getPN_inside, getPN_takes, pays_PN.mono (by norm_num) le_rfl, settled_PN⟩

lemma sparing_Int (w : ℕ) : Sparing ahead 1 (meteredInt w) := sparing_PN.map _

lemma settled_block {g : Decode Bytes} {size : BitVec 64} {asked : List MemoryEvent}
    (htrace : ∀ b, g.trace b =
      if size.toNat > remains b then [] else asked ++ [MemoryEvent.read b.pos size.toNat])
    (hasked : ∀ e ∈ asked, e = .bytes size.toNat) : SettledReader ahead g := by
  intro b e he
  rw [htrace] at he
  split_ifs at he with h
  · exact absurd he not_mem_nil
  · rw [remains] at h
    rcases mem_append.mp he with he | he
    · rw [hasked e he]
      exact fun _ => show size.toNat ≤ b.data.length by omega
    · rw [mem_singleton.mp he]
      exact fun _ => show b.pos + size.toNat ≤ b.data.length by omega

lemma unpackOr_error {e : InBuffer → Exn} {size : BitVec 64} {b b' : InBuffer} {x : Exn}
    (h : unpackOr e size b = (.error x, b')) : size.toNat > remains b := by
  rw [unpackOr] at h
  split_ifs at h with hsize
  · exact hsize
  · cases h

lemma pays_block {g : Decode Bytes} {x : InBuffer → Exn} {size : BitVec 64}
    {asked : List MemoryEvent} (herase : g.erase = unpackOr x size) (htrace : ∀ b, g.trace b =
      if size.toNat > remains b then [] else asked ++ [MemoryEvent.read b.pos size.toNat]) :
    g.Pays stepsPerByte (-(asked.length + 1)) 0 := by
  have hmono : ∀ b, b.pos ≤ (g.erase b).2.pos := by
    rw [herase]
    exact (unpackOr_inside x size).mono
  refine ⟨fun {b b' v t} h => ?_, fun {b b' y t} h => ?_⟩
  · have hlen : t.length ≤ asked.length + 1 := by
      have ht := htrace b
      rw [trace, h] at ht
      rw [show t = _ from ht]
      split_ifs <;> simp
    have hpos : b.pos ≤ b'.pos := by
      have := hmono b
      rwa [erase, h] at this
    rw [stepsPerByte]
    push_cast
    omega
  · have hlen : t = [] := by
      have ht := htrace b
      have herr : unpackOr x size b = (.error y, b') := by
        rw [← herase, erase, h]
      rw [trace, h, if_pos (unpackOr_error herr)] at ht
      exact ht
    have hpos : b.pos ≤ b'.pos := by
      have := hmono b
      rwa [erase, h] at this
    rw [stepsPerByte, hlen, length_nil]
    push_cast
    omega

lemma trace_Unpack (size : BitVec 64) (b : InBuffer) : (meteredUnpack size).trace b =
    if size.toNat > remains b then []
    else [MemoryEvent.bytes size.toNat] ++ [MemoryEvent.read b.pos size.toNat] := rfl

lemma trace_Copy (size : BitVec 64) (b : InBuffer) : (meteredCopy size).trace b =
    if size.toNat > remains b then [] else [] ++ [MemoryEvent.read b.pos size.toNat] := rfl

lemma settled_Unpack (size : BitVec 64) : SettledReader ahead (meteredUnpack size) :=
  settled_block (trace_Unpack size) fun _ he => mem_singleton.mp he

lemma settled_Copy (size : BitVec 64) : SettledReader ahead (meteredCopy size) :=
  settled_block (trace_Copy size) fun _ he => absurd he not_mem_nil

lemma sparing_of_head {δ : Type} {h : Decode δ} {g : δ → Decode α} (hh : Sparing ahead 1 h)
    (hhead : h.Pays stepsPerByte 4 1) (hin : ∀ n, (g n).erase.Inside)
    (hpays : ∀ n, (g n).Pays stepsPerByte (-3) 5) (hsettled : ∀ n, SettledReader ahead (g n)) :
    Sparing ahead 1 (h >>= g) where
  inside := by
    rw [erase_bind]
    exact hh.inside.bind hin
  takes := by
    rw [erase_bind]
    exact hh.takes.bind (fun n => Reader.Takes.zero (hin n)) fun _ => le_rfl
  pays := hhead.bind hpays
  settled := hh.settled.bind hh.inside hsettled

lemma sparing_PSTR : Sparing ahead 1 meteredPSTR :=
  sparing_of_head sparing_PN pays_PN (fun n => unpackOr_inside (sizeToSmall n) n)
    (fun n => (pays_block rfl (trace_Unpack n)).mono (by norm_num) (by norm_num)) settled_Unpack

lemma sparing_Ref (malloc : ℕ → ℕ) : Sparing ahead 1 (meteredRef malloc) := by
  have hposition : position.Pays stepsPerByte 0 5 :=
    ⟨fun h => by cases h; simp, fun h => by cases h⟩
  have hinside : position.erase.Inside := ⟨fun _ => rfl, fun _ => le_rfl, fun _ h => h⟩
  refine sparing_of_head sparing_PN pays_PN (fun n => ?_) (fun n => ?_) fun n => ?_
  · simp only [erase_bind, erase_pure]
    exact hinside.bind fun _ => (unpackOr_inside _ n).bind fun _ => Reader.Inside.pure _
  · refine (hposition.bind fun p => ?_).mono (l := -3) (k := 0 + (-2 + 0)) (by norm_num) le_rfl
    refine Metered.Pays.bind ((pays_block rfl (trace_Unpack n)).mono (by norm_num) (by norm_num))
      fun w => Metered.Pays.pure _
  · refine (SettledReader.nil fun _ => rfl).bind hinside fun p => ?_
    exact (settled_Unpack n).bind (unpackOr_inside _ n) fun w => SettledReader.nil fun _ => rfl

lemma sparing_BigInt : Sparing True 1 meteredBigInt := by
  refine sparing_of_head sparing_PN pays_PN (fun len => ?_) (fun len => ?_) fun len => ?_
  · simp only [erase_bind, erase_pure, erase_note, Reader.pure_bind]
    exact (unpackOr_inside _ len).bind fun _ => Reader.Inside.pure _
  · have hcopy : (meteredCopy len).Pays stepsPerByte (-1) 4 :=
      (pays_block rfl (trace_Copy len)).mono (by norm_num) (by norm_num)
    have hstack : (note [.stack len.toNat] : Decode Unit).Pays stepsPerByte (-1) 5 :=
      (Metered.Pays.note _).mono (by simp) le_rfl
    refine (hstack.bind fun _ => hcopy.bind fun buf => ?_).mono
      (k := -1 + (-1 + (-1 + 0))) (by norm_num) le_rfl
    exact (Metered.Pays.note [MemoryEvent.bytes buf.length]).bind fun _ => Metered.Pays.pure _
  · -- the number has the bytes that were copied
    intro b e he
    simp only [mem_trace_bind, trace_note, erase_note, trace_pure, erase_meteredCopy] at he
    rcases he with he | ⟨_, b₁, heq, he | ⟨buf, b₂, hok, he | ⟨_, _, _, he⟩⟩⟩
    · rw [mem_singleton.mp he]
      exact trivial
    · cases heq
      exact settled_Copy len b e he
    · cases heq
      obtain ⟨rfl, rfl⟩ := unpackOr_ok hok
      rw [mem_singleton.mp he]
      intro hb
      show (b.unread.take len.toNat).length ≤ b.data.length
      rw [length_take, Cursor.length_unread]
      omega
    · exact absurd he not_mem_nil

lemma sparing_Addr (C : Conversions) : Sparing ahead 1 (meteredAddr C) := by
  refine (sparing_Int 8).bind (l := 0) fun fam => ?_
  refine Sparing.ite ((sparing_PSTR.map _).mono (Nat.zero_le 1))
    (Sparing.ite ?_ (Sparing.ite ?_ ?_))
  · exact (sparing_PN.bind fun port => sparing_PN.map _).mono (Nat.zero_le _)
  · exact (sparing_PN.bind fun port => sparing_PSTR.map _).mono (Nat.zero_le _)
  · exact Sparing.fail _

/-! #### Containers -/

lemma settled_entries {g : Decode α} {grow : List α → List MemoryEvent} {w : α → ℕ}
    (hg : Sparing ahead 1 g) (hw : g.erase.Takes w)
    (hgrow : ∀ l, ∀ e ∈ grow l, ∃ n ≤ (l.map w).sum, e = .elements n) (n : ℕ) :
    SettledReader ahead (entries g grow [] n) := by
  intro b e he
  obtain ⟨i, -, l, b₁, hl, he⟩ := mem_trace_entries.mp he
  have hin := hg.inside.repeatN i
  have hdata : b₁.data = b.data := by
    have := hin.data b
    rwa [hl] at this
  have hle : b.pos ≤ b.data.length → b₁.pos ≤ b.data.length := by
    intro hb
    have := hin.le b hb
    rwa [hl] at this
  rcases he with he | ⟨a, b₂, ha, he⟩
  · exact (hg.settled b₁ e he).of_inside hdata hle
  · obtain ⟨n, hn, rfl⟩ := hgrow _ e he
    intro hb
    have hentries : b.pos + (l.map w).sum ≤ b₁.pos := hw.repeatN i _ _ _ hl
    have hentry := hw _ _ _ ha
    have hend : b₂.pos ≤ b.data.length := by
      have := hg.inside.le b₁ (hdata ▸ hle hb)
      rwa [ha, hdata] at this
    rw [nil_append, map_append, sum_append, map_singleton, sum_singleton] at hn
    show n ≤ b.data.length
    omega

lemma sparing_entries {g : Decode α} {grow : List α → List MemoryEvent} {w : α → ℕ}
    (hg : Sparing ahead 1 g) (hw : g.erase.Takes w) (hlen : ∀ l, (grow l).length ≤ 1)
    (hgrow : ∀ l, ∀ e ∈ grow l, ∃ n ≤ (l.map w).sum, e = .elements n) (n : ℕ) :
    Sparing ahead 0 (entries g grow [] n) := by
  have hin : (entries g grow [] n).erase.Inside := by
    rw [erase_entries]
    exact (hg.inside.repeatN n).bind fun l => Reader.Inside.pure _
  exact ⟨hin, Reader.Takes.zero hin, hg.pays.entries hlen [] n, settled_entries hg hw hgrow n⟩

lemma unpackHop_takes : meteredHop.erase.Takes fun hop => if hop.isSome then 2 else 1 := by
  have hint : ∀ w, (meteredInt w).erase.Takes fun _ => 1 :=
    fun w => (@sparing_Int True w).takes
  have hmap : ∀ {β : Type} {g : Decode β} (f : β → Route), g.erase.Takes (fun _ => 1) →
      (g >>= fun v => pure (some (f v))).erase.Takes
        fun hop : Option Route => if hop.isSome then 1 else 0 := by
    intro β g f hg
    rw [erase_bind]
    refine hg.bind (w := fun _ => 0) (fun v => Reader.Takes.pure rfl) fun hop => ?_
    split_ifs <;> omega
  rw [meteredHop, erase_bind]
  refine (hint 32).bind (w := fun hop => if hop.isSome then 1 else 0) (fun t => ?_) fun hop => ?_
  · split_ifs
    · exact Reader.Takes.fail _
    · exact hmap _ (hint 32)
    · exact hmap _ (hint 32)
    · exact hmap _ (hint 64)
    · exact hmap _ getPN_takes
    · exact hmap _ getPN_takes
    · exact hmap _ (hint 64)
    · exact Reader.Takes.pure rfl
  · split_ifs <;> omega

lemma sparing_Hop : Sparing ahead 1 meteredHop := by
  refine (sparing_Int 32).bind (l := 0) fun t => ?_
  split_ifs
  · exact Sparing.fail _
  · exact ((sparing_Int 32).map _).mono (Nat.zero_le 1)
  · exact ((sparing_Int 32).map _).mono (Nat.zero_le 1)
  · exact ((sparing_Int 64).map _).mono (Nat.zero_le 1)
  · exact (sparing_PN.map _).mono (Nat.zero_le 1)
  · exact (sparing_PN.map _).mono (Nat.zero_le 1)
  · exact ((sparing_Int 64).map _).mono (Nat.zero_le 1)
  · exact Sparing.pure _

lemma two_mul_length_le (hops : List (Option Route)) :
    2 * (hops.filterMap id).length ≤ (hops.map fun hop => if hop.isSome then 2 else 1).sum := by
  induction hops with
  | nil => exact le_rfl
  | cons hop hops ih =>
    cases hop with
    | none =>
      rw [filterMap_cons_none rfl, map_cons, sum_cons]
      exact ih.trans (Nat.le_add_left _ _)
    | some r =>
      show 2 * ((hops.filterMap id).length + 1) ≤ _
      rw [map_cons, sum_cons]
      simp only [Option.isSome_some, if_true]
      omega

lemma sparing_Route : Sparing ahead 1 meteredRoute := by
  refine sparing_PN.bind fun sz => Sparing.map (k := 0) ?_ _
  refine sparing_entries sparing_Hop unpackHop_takes (fun _ => le_rfl) (fun hops e he => ?_) _
  exact ⟨_, two_mul_length_le hops, mem_singleton.mp he⟩

lemma sparing_Seq {asked : ℕ → List MemoryEvent} {grow : List α → List MemoryEvent}
    {get : Decode α} (hget : Sparing ahead 1 get) (hlen : ∀ l, (grow l).length ≤ 1)
    (hgrow : ∀ l, ∀ e ∈ grow l, e = .elements l.length) (hasked : ∀ n, (asked n).length ≤ 1)
    (hsettled : ∀ n b, ∀ e ∈ asked n, e.Settled ahead b) :
    Sparing ahead 1 (meteredSeq asked grow get) := by
  have hentries : ∀ n, Sparing ahead 0 (entries get grow [] n) := by
    refine sparing_entries hget hget.takes hlen fun l e he => ⟨_, ?_, hgrow l e he⟩
    simp
  refine sparing_of_head (sparing_Int 32) (pays_PN.bind fun v => Metered.Pays.pure _)
    (fun n => ?_) (fun n => ?_) fun n => ?_
  · simp only [erase_bind, erase_note, Reader.pure_bind]
    exact (hentries n.toNat).inside
  · have hone : (note (asked n.toNat) : Decode Unit).Pays stepsPerByte (-1) 5 :=
      (Metered.Pays.note _).mono (by have := hasked n.toNat; omega) le_rfl
    refine (hone.bind fun _ => ?_).mono (k := -1 + 0) (by norm_num) le_rfl
    exact (hentries n.toNat).pays.mono le_rfl (by norm_num)
  · exact SettledReader.bind (hsettled n.toNat) (Reader.Inside.pure ())
      fun _ => (hentries n.toNat).settled

lemma sparing_vector {get : Decode α} (hget : Sparing True 1 get) :
    Sparing True 1 (meteredSeq (fun n => [.reserve n]) (fun _ => []) get) := by
  refine sparing_Seq hget (fun _ => Nat.zero_le 1) (fun _ e he => absurd he not_mem_nil)
    (fun _ => le_rfl) fun n b e he => ?_
  rw [mem_singleton.mp he]
  exact trivial

lemma sparing_oneByOne {get : Decode α} (hget : Sparing ahead 1 get) :
    Sparing ahead 1 (meteredSeq (fun _ => []) oneByOne get) :=
  sparing_Seq hget (fun _ => le_rfl) (fun _ _ he => mem_singleton.mp he) (fun _ => Nat.zero_le 1)
    fun _ _ _ he => absurd he not_mem_nil

/-- **Every operator `>>` is sparing.** -/
theorem Wire.sparing (C : Conversions) (malloc : ℕ → ℕ) (t : Wire) :
    Sparing True 1 ((t.decoder C).get malloc) := by
  induction t with
  | int w signed => exact sparing_Int w.bits
  | bool => exact sparing_PN.map _
  | real => exact sparing_PSTR.map _
  | string => exact sparing_PSTR
  | ref => exact sparing_Ref malloc
  | bigInt => exact sparing_BigInt
  | address => exact sparing_Addr C
  | route => exact sparing_Route
  | pair a b iha ihb => exact (iha.bind fun v => ihb.map _).mono (by norm_num)
  | vector a ih => exact sparing_vector ih
  | list a ih | deque a ih => exact sparing_oneByOne ih
  | set a ih => exact (sparing_oneByOne ih).map _
  | map a b iha ihb =>
    exact (sparing_oneByOne ((iha.bind fun v => ihb.map _).mono (by norm_num))).map _

/-! ### What the bytes declare -/

def InEntries (get : Reader α) (n : ℕ) (b : InBuffer) (P : InBuffer → Prop) : Prop :=
  ∃ i < n, ∃ l b', Reader.repeatN get i b = (.ok l, b') ∧ P b'

def InSeq (b : InBuffer) (P : ℕ → InBuffer → Prop) : Prop :=
  ∃ n b', getInt 32 b = (.ok n, b') ∧ P n.toNat b'

/-- The operator `>>` without the record. -/
def Wire.reader (C : Conversions) (malloc : ℕ → ℕ) (t : Wire) : Reader (t.decoder C).Val :=
  ((t.decoder C).get malloc).erase

def Wire.Declares (C : Conversions) (malloc : ℕ → ℕ) (m : ℕ) : Wire → InBuffer → Prop
  | .int _ _, _ => False
  | .bool, _ => False
  | .real, _ => False
  | .string, _ => False
  | .ref, _ => False
  | .bigInt, b => ∃ len b', getPN b = (.ok len, b') ∧ m = len.toNat
  | .address, _ => False
  | .route, _ => False
  | .pair x y, b => x.Declares C malloc m b ∨
      ∃ v b', x.reader C malloc b = (.ok v, b') ∧ y.Declares C malloc m b'
  | .vector x, b => InSeq b fun n b' =>
    m = n ∨ InEntries (x.reader C malloc) n b' (x.Declares C malloc m)
  | .list x, b => InSeq b fun n b' => InEntries (x.reader C malloc) n b' (x.Declares C malloc m)
  | .deque x, b => InSeq b fun n b' => InEntries (x.reader C malloc) n b' (x.Declares C malloc m)
  | .set x, b => InSeq b fun n b' => InEntries (x.reader C malloc) n b' (x.Declares C malloc m)
  | .map x y, b => InSeq b fun n b' =>
    InEntries ((Wire.pair x y).reader C malloc) n b' fun b'' => x.Declares C malloc m b'' ∨
      ∃ v b₃, x.reader C malloc b'' = (.ok v, b₃) ∧ y.Declares C malloc m b₃

/-- `m` is asked for ahead of reading. -/
def Ahead (m : ℕ) (trace : List MemoryEvent) : Prop :=
  ∃ e ∈ trace, .reserve m = e ∨ .stack m = e

variable {m : ℕ}

lemma ahead_bind {g : Decode α} {f : α → Decode γ} {b : InBuffer} : Ahead m ((g >>= f).trace b) ↔
    Ahead m (g.trace b) ∨ ∃ a b', g.erase b = (.ok a, b') ∧ Ahead m ((f a).trace b') := by
  constructor
  · rintro ⟨e, he, hm⟩
    rcases mem_trace_bind.mp he with he | ⟨a, b', hok, he⟩
    · exact .inl ⟨e, he, hm⟩
    · exact .inr ⟨a, b', hok, e, he, hm⟩
  · rintro (⟨e, he, hm⟩ | ⟨a, b', hok, e, he, hm⟩)
    · exact ⟨e, mem_trace_bind.mpr (.inl he), hm⟩
    · exact ⟨e, mem_trace_bind.mpr (.inr ⟨a, b', hok, he⟩), hm⟩

lemma SettledReader.quiet {g : Decode α} (hg : SettledReader False g) (b : InBuffer) (m : ℕ) :
    ¬ Ahead m (g.trace b) := by
  rintro ⟨e, he, rfl | rfl⟩
  · exact hg b _ he
  · exact hg b _ he

lemma ahead_entries {g : Decode α} {grow : List α → List MemoryEvent} {done : List α} {n : ℕ}
    {b : InBuffer} (hgrow : ∀ l, ¬ Ahead m (grow l)) :
    Ahead m ((entries g grow done n).trace b) ↔
      InEntries g.erase n b fun b' => Ahead m (g.trace b') := by
  constructor
  · rintro ⟨e, he, hm⟩
    obtain ⟨i, hi, l, b', hl, he | ⟨a, b'', -, he⟩⟩ := mem_trace_entries.mp he
    · exact ⟨i, hi, l, b', hl, e, he, hm⟩
    · exact absurd ⟨e, he, hm⟩ (hgrow _)
  · rintro ⟨i, hi, l, b', hl, e, he, hm⟩
    exact ⟨e, mem_trace_entries.mpr ⟨i, hi, l, b', hl, .inl he⟩, hm⟩

lemma ahead_seq {ahead : ℕ → List MemoryEvent} {grow : List α → List MemoryEvent}
    {get : Decode α} {b : InBuffer} (hgrow : ∀ l, ¬ Ahead m (grow l)) :
    Ahead m ((meteredSeq ahead grow get).trace b) ↔ InSeq b fun n b' =>
      Ahead m (ahead n) ∨ InEntries get.erase n b' fun b'' => Ahead m (get.trace b'') := by
  rw [meteredSeq, ahead_bind, or_iff_right ((sparing_Int 32).settled.quiet b m), InSeq,
    erase_meteredInt]
  simp only [ahead_bind, trace_note, erase_note, ahead_entries hgrow, Reader.pure_apply]
  constructor
  · rintro ⟨n, b', hok, h | ⟨_, b'', heq, h⟩⟩
    · exact ⟨n, b', hok, .inl h⟩
    · cases heq
      exact ⟨n, b', hok, .inr h⟩
  · rintro ⟨n, b', hok, h | h⟩
    · exact ⟨n, b', hok, .inl h⟩
    · exact ⟨n, b', hok, .inr ⟨(), b', rfl, h⟩⟩

lemma ahead_vector {get : Decode α} {b : InBuffer} :
    Ahead m ((meteredSeq (fun n => [.reserve n]) (fun _ => []) get).trace b) ↔ InSeq b fun n b' =>
        m = n ∨ InEntries get.erase n b' fun b'' => Ahead m (get.trace b'') := by
  rw [ahead_seq fun l => by simp [Ahead]]
  simp [Ahead]

lemma ahead_oneByOne {get : Decode α} {b : InBuffer} :
    Ahead m ((meteredSeq (fun _ => []) oneByOne get).trace b) ↔
      InSeq b fun n b' => InEntries get.erase n b' fun b'' => Ahead m (get.trace b'') := by
  rw [ahead_seq fun l => by simp [Ahead, oneByOne]]
  simp [Ahead]

lemma ahead_map {g : Decode α} {f : α → γ} {b : InBuffer} :
    Ahead m ((g >>= fun a => pure (f a)).trace b) ↔ Ahead m (g.trace b) := by
  rw [ahead_bind]
  refine or_iff_left ?_
  rintro ⟨a, b', -, h⟩
  exact (Sparing.pure (f a)).settled.quiet b' m h

lemma ahead_bigInt {b : InBuffer} : Ahead m (meteredBigInt.trace b) ↔
    ∃ len b', getPN b = (.ok len, b') ∧ m = len.toNat := by
  have hrest : ∀ (len : BitVec 64) (b' : InBuffer),
      Ahead m ((meteredCopy len >>= fun buf => note [.bytes buf.length] >>=
        fun _ => pure (bnBin2bn buf (len.setWidth 32))).trace b') ↔ False := by
    refine fun len b' => iff_of_false ?_ not_false
    rw [ahead_bind, or_iff_right ((settled_Copy len).quiet b' m)]
    rintro ⟨buf, b'', -, h⟩
    have hnote := ahead_map.mp h
    simp [Ahead] at hnote
  rw [meteredBigInt, ahead_bind, or_iff_right (settled_PN.quiet b m), erase_meteredPN]
  simp only [ahead_bind (g := note _), trace_note, hrest, and_false, exists_const]
  simp [Ahead]

lemma ahead_pair {x : Decode α} {y : Decode γ} {b : InBuffer} :
    Ahead m ((x >>= fun v => y >>= fun w => pure (v, w)).trace b) ↔
      Ahead m (x.trace b) ∨ ∃ v b', x.erase b = (.ok v, b') ∧ Ahead m (y.trace b') := by
  simp only [ahead_bind (g := x), ahead_map]

theorem Wire.ahead_iff (C : Conversions) (malloc : ℕ → ℕ) (t : Wire) (b : InBuffer) :
    Ahead m (((t.decoder C).get malloc).trace b) ↔ t.Declares C malloc m b := by
  induction t generalizing b with
  | int w signed => exact iff_of_false ((sparing_Int w.bits).settled.quiet b m) not_false
  | bool => exact iff_of_false ((sparing_PN.map _).settled.quiet b m) not_false
  | real => exact iff_of_false ((sparing_PSTR.map _).settled.quiet b m) not_false
  | string => exact iff_of_false (sparing_PSTR.settled.quiet b m) not_false
  | ref => exact iff_of_false ((sparing_Ref malloc).settled.quiet b m) not_false
  | bigInt => exact ahead_bigInt
  | address => exact iff_of_false ((sparing_Addr C).settled.quiet b m) not_false
  | route => exact iff_of_false (sparing_Route.settled.quiet b m) not_false
  | pair x y ihx ihy =>
    refine ahead_pair.trans ?_
    simp only [ihx, ihy]
    rfl
  | vector x ih =>
    refine ahead_vector.trans ?_
    simp only [ih]
    rfl
  | list x ih | deque x ih =>
    refine ahead_oneByOne.trans ?_
    simp only [ih]
    rfl
  | set x ih =>
    refine (ahead_map.trans ahead_oneByOne).trans ?_
    simp only [ih]
    rfl
  | map x y ihx ihy =>
    refine (ahead_map.trans ahead_oneByOne).trans ?_
    simp only [Decoder.pairOf, ahead_pair, ihx, ihy]
    rfl

/-! ### Decoding bytes from a peer -/

structure WithinInput (g : Decode α) (s : Bytes) : Prop where
  ends : (∃ v b, g.erase (InBuffer.ofBytes s) = (.ok v, b)) ∨
    ∃ x b, g.erase (InBuffer.ofBytes s) = (.error x, b)
  steps : (g.trace (InBuffer.ofBytes s)).length ≤ stepsPerByte * s.length + 1
  position : (g.erase (InBuffer.ofBytes s)).2.pos ≤ s.length
  memory : ∀ e ∈ g.trace (InBuffer.ofBytes s), e.Within s.length

lemma Sparing.steps {g : Decode α} (hg : Sparing ahead k g) (b : InBuffer)
    (hb : b.pos ≤ b.data.length) :
    (g.trace b).length ≤ stepsPerByte * (b.data.length - b.pos) + 1 := by
  have hend : (g b).1.2.pos ≤ b.data.length := hg.inside.le b hb
  rcases h : g b with ⟨⟨x | a, b'⟩, t⟩
  · have hsteps := hg.pays.error h
    have hend : b'.pos ≤ b.data.length := by rwa [h] at hend
    rw [trace, h]
    simp only [stepsPerByte] at hsteps ⊢
    push_cast at hsteps
    omega
  · have hsteps := hg.pays.ok h
    have hend : b'.pos ≤ b.data.length := by rwa [h] at hend
    rw [trace, h]
    simp only [stepsPerByte] at hsteps ⊢
    push_cast at hsteps
    omega

lemma within_of_declared_le {C : Conversions} {malloc : ℕ → ℕ} {t : Wire} {s : Bytes}
    (h : ∀ m, t.Declares C malloc m (InBuffer.ofBytes s) → m ≤ s.length) :
    WithinInput ((t.decoder C).get malloc) s := by
  have hsparing := t.sparing C malloc
  refine ⟨?_, hsparing.steps _ (Nat.zero_le _), hsparing.inside.le _ (Nat.zero_le _),
    fun e he => ?_⟩
  · rcases hr : ((t.decoder C).get malloc).erase (InBuffer.ofBytes s) with ⟨x | v, b⟩
    · exact .inr ⟨x, b, rfl⟩
    · exact .inl ⟨v, b, rfl⟩
  · have hsettled := hsparing.settled (InBuffer.ofBytes s) e he
    cases e with
    | read pos n | bytes n | elements n => exact hsettled (Nat.zero_le _)
    | stack n => exact h n ((t.ahead_iff C malloc _).mp ⟨_, he, .inr rfl⟩)
    | reserve n => exact h n ((t.ahead_iff C malloc _).mp ⟨_, he, .inl rfl⟩)

/-- **Decoding bytes from a peer** is bounded by them unless they declare more. -/
theorem decoding_within_input_iff (C : Conversions) (malloc : ℕ → ℕ) (t : Wire) (s : Bytes) :
    WithinInput ((t.decoder C).get malloc) s ↔
      ∀ m, t.Declares C malloc m (InBuffer.ofBytes s) → m ≤ s.length := by
  refine ⟨fun h m hm => ?_, within_of_declared_le⟩
  obtain ⟨e, he, rfl | rfl⟩ := (t.ahead_iff C malloc _).mpr hm
  · exact h.memory _ he
  · exact h.memory _ he

/-- **Five bytes ask for too much.** -/
theorem five_bytes_exceed : (∀ (C : Conversions) (malloc : ℕ → ℕ), MemoryEvent.reserve 4294967295 ∈
        (((Wire.vector (.int .w32 true)).decoder C).get malloc).trace
          (InBuffer.ofBytes [0x8F#8, 0xFF#8, 0xFF#8, 0xFF#8, 0x7F#8]) ∧
      ¬ WithinInput (((Wire.vector (.int .w32 true)).decoder C).get malloc)
        [0x8F#8, 0xFF#8, 0xFF#8, 0xFF#8, 0x7F#8]) ∧ ∀ (C : Conversions) (malloc : ℕ → ℕ),
      MemoryEvent.stack 1073741824 ∈ ((Wire.bigInt.decoder C).get malloc).trace
          (InBuffer.ofBytes [0x84#8, 0x80#8, 0x80#8, 0x80#8, 0#8]) ∧
      ¬ WithinInput ((Wire.bigInt.decoder C).get malloc) [0x84#8, 0x80#8, 0x80#8, 0x80#8, 0#8] := by
  constructor <;> intro C malloc
  · have hvector : MemoryEvent.reserve 4294967295 ∈
        (((Wire.vector (.int .w32 true)).decoder C).get malloc).trace
          (InBuffer.ofBytes [0x8F#8, 0xFF#8, 0xFF#8, 0xFF#8, 0x7F#8]) := by
      refine Metered.mem_trace_bind.mpr (.inr ⟨4294967295#32, ⟨_, 5⟩, rfl, ?_⟩)
      exact Metered.mem_trace_bind.mpr (.inl (mem_singleton_self _))
    refine ⟨hvector, fun h => ?_⟩
    have hle : 4294967295 ≤ 5 := h.memory _ hvector
    omega
  · have hbig : MemoryEvent.stack 1073741824 ∈ ((Wire.bigInt.decoder C).get malloc).trace
        (InBuffer.ofBytes [0x84#8, 0x80#8, 0x80#8, 0x80#8, 0#8]) := by
      refine Metered.mem_trace_bind.mpr (.inr ⟨1073741824#64, ⟨_, 5⟩, rfl, ?_⟩)
      exact Metered.mem_trace_bind.mpr (.inl (mem_singleton_self _))
    refine ⟨hbig, fun h => ?_⟩
    have hle : 1073741824 ≤ 5 := h.memory _ hbig
    omega

end Megatron
