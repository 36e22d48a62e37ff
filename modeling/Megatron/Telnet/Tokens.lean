import Megatron.Library.Reads
import Megatron.Telnet.Session

/-!
Reads of a telnet session that hold whole telnet commands, and after them at most one key or
character.
-/

namespace Megatron.Telnet

open Library List

inductive Negotiation where
  /-- `IAC WILL`, `WONT`, `DO` or `DONT` and the option. -/
  | verb (cmd2 cmd3 : Byte) (h : isVerb cmd2 = true)
  | naws (x1 x2 y1 y2 : Byte)
  /-- The functions of `LINEMODE`, up to `IAC SE`. -/
  | slc (functions : List (Byte × Byte × Byte)) (h : ∀ f ∈ functions, isSlc f.1 = true)
  | linemode (cmd4 : Byte) (h : cmd4 ≠ 3#8)
  | option (cmd3 : Byte) (h : cmd3 ≠ 34#8) (h' : cmd3 ≠ 31#8)
  | command (cmd2 : Byte) (h : isVerb cmd2 = false) (h' : cmd2 ≠ sb)

def Negotiation.bytes : Negotiation → Bytes
  | verb cmd2 cmd3 _ => [iac, cmd2, cmd3]
  | naws x1 x2 y1 y2 => [iac, sb, 31#8, x1, x2, y1, y2]
  | slc functions _ =>
    [iac, sb, 34#8, 3#8] ++ functions.flatMap (fun f => [f.1, f.2.1, f.2.2]) ++ [iac, se]
  | linemode cmd4 _ => [iac, sb, 34#8, cmd4]
  | option cmd3 _ _ => [iac, sb, cmd3]
  | command cmd2 _ _ => [iac, cmd2]

def Negotiation.apply (W : Session) : Negotiation → Session
  | naws x1 x2 y1 y2 => Telnet.naws W [x1, x2, y1, y2]
  | _ => W

lemma isSlc_iac : isSlc iac = false := by decide

lemma isVerb_sb : isVerb sb = false := by decide

lemma lmSlc_functions {functions : List (Byte × Byte × Byte)}
    (h : ∀ f ∈ functions, isSlc f.1 = true) (rest : Bytes) :
    lmSlc 0 (functions.flatMap (fun f => [f.1, f.2.1, f.2.2]) ++ iac :: se :: rest) = rest := by
  induction functions with
  | nil =>
    rw [flatMap_nil, nil_append, lmSlc, if_pos ⟨rfl, rfl⟩]
    rfl
  | cons f functions ih =>
    have hf := h f mem_cons_self
    have hne : f.1 ≠ iac := by
      intro he
      rw [he, isSlc_iac] at hf
      cases hf
    rw [flatMap_cons, append_assoc]
    simp only [cons_append, nil_append]
    rw [lmSlc, if_neg (fun h => hne h.1), if_pos hf]
    exact ih fun f hf => h f (mem_cons_of_mem _ hf)

lemma telnetCommands_bytes (W : Session) (n : Negotiation) (rest : Bytes) :
    telnetCommands W (n.bytes ++ rest) = telnetCommands (n.apply W) rest := by
  have hsb (chars : Bytes) : telnetCommands W (iac :: sb :: chars) =
        telnetCommands (subnegotiation W chars).1 (subnegotiation W chars).2 := by
    rw [telnetCommands_iac, afterIac, isVerb_sb]
    rfl
  cases n with
  | verb cmd2 cmd3 h =>
    change telnetCommands W (iac :: cmd2 :: cmd3 :: rest) = _
    rw [telnetCommands_iac, afterIac, if_pos h]
    rfl
  | naws x1 x2 y1 y2 => exact hsb _
  | slc functions h =>
    change telnetCommands W (iac :: sb :: 34#8 :: 3#8 ::
      (functions.flatMap (fun f => [f.1, f.2.1, f.2.2]) ++ [iac, se]) ++ rest) = _
    rw [cons_append, cons_append, cons_append, cons_append, hsb,
      subnegotiation, if_pos rfl, linemode, if_pos rfl, append_assoc]
    change telnetCommands W (lmSlc 0 (_ ++ iac :: se :: rest)) = _
    rw [lmSlc_functions h]
    rfl
  | linemode cmd4 h =>
    change telnetCommands W (iac :: sb :: 34#8 :: cmd4 :: rest) = _
    rw [hsb, subnegotiation, if_pos rfl, linemode, if_neg h]
    rfl
  | option cmd3 h h' =>
    change telnetCommands W (iac :: sb :: cmd3 :: rest) = _
    rw [hsb, subnegotiation, if_neg h, if_neg h']
    rfl
  | command cmd2 h h' =>
    change telnetCommands W (iac :: cmd2 :: rest) = _
    rw [telnetCommands_iac, afterIac, h, if_neg Bool.false_ne_true, if_neg h']
    rfl

/-! ### Keys and characters -/

inductive Stroke where
  | key (k : Key)
  | char (c : Byte) (h : c ≠ iac) (h' : c ∉ keyHeads)

def Stroke.bytes : Stroke → Bytes
  | key k => k.bytes
  | char c _ _ => [c]

inductive Token where
  | negotiation (n : Negotiation)
  | stroke (s : Stroke)

structure WholeRead where
  negotiations : List Negotiation
  stroke : Option Stroke

def WholeRead.bytes (r : WholeRead) : Bytes :=
  r.negotiations.flatMap Negotiation.bytes ++ (r.stroke.map Stroke.bytes).getD []

def WholeRead.tokens (r : WholeRead) : List Token :=
  r.negotiations.map .negotiation ++ (r.stroke.map .stroke).toList

variable (regexec : Regexec) (svc : Service)

def Token.step (W : Session) : Token → Except Fault (Session × List Action)
  | negotiation n => .ok (n.apply W, [])
  | stroke (.key k) => onKey svc W k
  | stroke (.char c _ _) => .ok (onChar regexec svc W c)

lemma telnetCommands_flatMap (W : Session) (ns : List Negotiation) (rest : Bytes) :
    telnetCommands W (ns.flatMap Negotiation.bytes ++ rest) =
      telnetCommands (ns.foldl Negotiation.apply W) rest := by
  induction ns generalizing W with
  | nil => rfl
  | cons n ns ih =>
    rw [flatMap_cons, append_assoc, telnetCommands_bytes, ih]
    rfl

lemma runReads_negotiations (W : Session) (ns : List Negotiation) :
    runReads (Token.step regexec svc) W (ns.map .negotiation) =
      .ok (ns.foldl Negotiation.apply W, []) := by
  induction ns generalizing W with
  | nil => rfl
  | cons n ns ih =>
    rw [map_cons, runReads, Token.step]
    simp only [bind, Except.bind, ih]
    rfl

lemma onStreamRead_stroke (W : Session) (s : Stroke) :
    onStreamRead regexec svc W s.bytes = Token.step regexec svc W (.stroke s) := by
  cases s with
  | key k => exact onStreamRead_key k
  | char c h h' => exact onStreamRead_char h (Key.ofBytes_of_head h' [])

lemma onStreamRead_whole (W : Session) (r : WholeRead) :
    onStreamRead regexec svc W r.bytes = runReads (Token.step regexec svc) W r.tokens := by
  have hstrip : onStreamRead regexec svc W r.bytes =
      onStreamRead regexec svc (r.negotiations.foldl Negotiation.apply W)
        ((r.stroke.map Stroke.bytes).getD []) := by
    rw [onStreamRead, onStreamRead, WholeRead.bytes, telnetCommands_flatMap]
  rw [hstrip, WholeRead.tokens, runReads_append, runReads_negotiations]
  cases r.stroke with
  | none => rfl
  | some s =>
    simp only [Option.map_some, Option.getD_some, Option.toList_some, bind, Except.bind, runReads,
      onStreamRead_stroke, nil_append]
    cases Token.step regexec svc _ (.stroke s) with
    | error e => rfl
    | ok p => simp only [pure, Except.pure, append_nil]

/-- **Whole reads** act as their commands and keys, one after the other. -/
theorem runReads_wholeReads (W : Session) (rs : List WholeRead) :
    runReads (onStreamRead regexec svc) W (rs.map WholeRead.bytes) =
      runReads (Token.step regexec svc) W (rs.flatMap WholeRead.tokens) := by
  rw [← runReads_flatMap (onStreamRead_whole regexec svc)]
  induction rs generalizing W with
  | nil => rfl
  | cons r rs ih => simp only [map_cons, runReads, ih]

end Megatron.Telnet
