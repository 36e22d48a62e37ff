import Mathlib.Data.List.Basic

/-!
The tokens of an SQL text, as far as one has to know them to say that two texts have the
same structure.
-/

namespace Library

open List

structure SqlLexer where
  Token : Type
  tokens : List (BitVec 8) → List Token
  /-- The text ends outside quotes and comments. -/
  Outside : List (BitVec 8) → Prop
  /-- The token is the literal of a string or of a number. -/
  Literal : Token → Prop
  semicolon : Token
  outside_nil : Outside []
  tokens_semicolon : ∀ {p : List (BitVec 8)}, Outside p → ∀ s,
    tokens (p ++ 59#8 :: s) = tokens p ++ semicolon :: tokens s

namespace SqlLexer

variable (L : SqlLexer)

/-- The tokens are the same, up to the contents of at most `k` literals. -/
inductive SameUpTo : ℕ → List L.Token → List L.Token → Prop
  | nil : SameUpTo k [] []
  | same : SameUpTo k ts us → SameUpTo k (t :: ts) (t :: us)
  | literal : L.Literal t → L.Literal u → SameUpTo k ts us → SameUpTo (k + 1) (t :: ts) (u :: us)

variable {L} {k : ℕ} {ts us : List L.Token}

lemma SameUpTo.refl (k : ℕ) (ts : List L.Token) : L.SameUpTo k ts ts := by
  induction ts with
  | nil => exact .nil
  | cons t ts ih => exact .same ih

lemma SameUpTo.length_eq (h : L.SameUpTo k ts us) : ts.length = us.length := by
  induction h with
  | nil => rfl
  | same _ ih | literal _ _ _ ih => rw [length_cons, length_cons, ih]

lemma length_tokens_semicolons {p : List (BitVec 8)} (hp : L.Outside p) (s : List (BitVec 8)) :
    (L.tokens (p ++ 59#8 :: s)).length < (L.tokens (p ++ 59#8 :: 59#8 :: s)).length := by
  have hsecond := L.tokens_semicolon L.outside_nil s
  rw [nil_append] at hsecond
  rw [L.tokens_semicolon hp, L.tokens_semicolon hp, hsecond]
  simp only [length_append, length_cons]
  omega

end SqlLexer

/-! ### A lexer -/

namespace SqlText

inductive Quote where
  | single | double | back
  deriving DecidableEq, Repr

def Quote.byte : Quote → BitVec 8
  | .single => 39#8
  | .double => 34#8
  | .back => 96#8

def quote? (c : BitVec 8) : Option Quote :=
  if c = 39#8 then some .single
  else if c = 34#8 then some .double
  else if c = 96#8 then some .back
  else none

inductive Token where
  /-- A name, a keyword or a number. -/
  | word (bytes : List (BitVec 8))
  /-- A string, or a name in backquotes. -/
  | quoted (quote : Quote) (bytes : List (BitVec 8))
  /-- A quote that is never closed. -/
  | unclosed (quote : Quote) (bytes : List (BitVec 8))
  | operator (bytes : List (BitVec 8))
  | symbol (byte : BitVec 8)
  deriving DecidableEq, Repr

inductive Mode where
  | start
  | word (bytes : List (BitVec 8))
  | operator (bytes : List (BitVec 8))
  | quoted (quote : Quote) (bytes : List (BitVec 8))
  /-- After a backslash in a string. -/
  | escaped (quote : Quote) (bytes : List (BitVec 8))
  | closed (quote : Quote) (bytes : List (BitVec 8))
  | dash
  | dashes
  | slash
  | lineComment
  | blockComment
  /-- After an asterisk in a comment. -/
  | blockStar
  deriving DecidableEq, Repr

def isSpace (c : BitVec 8) : Bool := decide (c ≤ 32#8)

def isDigit (c : BitVec 8) : Bool := decide (48#8 ≤ c) && decide (c ≤ 57#8)

/-- Letters, digits, `_`, `$`, `@` and the bytes of other alphabets. -/
def isWord (c : BitVec 8) : Bool :=
  isDigit c || (decide (65#8 ≤ c) && decide (c ≤ 90#8)) ||
    (decide (97#8 ≤ c) && decide (c ≤ 122#8)) || c == 95#8 || c == 36#8 || c == 64#8 ||
    decide (128#8 ≤ c)

def isOperator (c : BitVec 8) : Bool :=
  c == 60#8 || c == 61#8 || c == 62#8 || c == 33#8 || c == 124#8 || c == 38#8 || c == 58#8

namespace Mode

def flush : Mode → List Token
  | .word bytes => [.word bytes]
  | .operator bytes => [.operator bytes]
  | .quoted q bytes => [.unclosed q bytes]
  | .escaped q bytes => [.unclosed q bytes]
  | .closed q bytes => [.quoted q bytes]
  | .dash => [.operator [45#8]]
  | .dashes => [.operator [45#8], .operator [45#8]]
  | .slash => [.operator [47#8]]
  | _ => []

def continue? : Mode → BitVec 8 → Option Mode
  | .start, _ => none
  | .word bytes, c =>
    if isWord c || (c == 46#8 && bytes.all isDigit) then some (.word (bytes ++ [c])) else none
  | .operator bytes, c => if isOperator c then some (.operator (bytes ++ [c])) else none
  | .quoted q bytes, c =>
    if c = 92#8 ∧ q ≠ .back then some (.escaped q bytes)
    else if c = q.byte then some (.closed q bytes)
    else some (.quoted q (bytes ++ [c]))
  | .escaped q bytes, c => some (.quoted q (bytes ++ [c]))
  | .closed q bytes, c => if c = q.byte then some (.quoted q (bytes ++ [c])) else none
  | .dash, c => if c = 45#8 then some .dashes else none
  | .dashes, c => if isSpace c then some .lineComment else none
  | .slash, c => if c = 42#8 then some .blockComment else none
  | .lineComment, c => if c = 10#8 then some .start else some .lineComment
  | .blockComment, c => if c = 42#8 then some .blockStar else some .blockComment
  | .blockStar, c =>
    if c = 47#8 then some .start
    else if c = 42#8 then some .blockStar
    else some .blockComment

def outside : Mode → Bool
  | .quoted _ _ | .escaped _ _ | .lineComment | .blockComment | .blockStar => false
  | _ => true

end Mode

def begin (c : BitVec 8) : List Token × Mode :=
  if isSpace c then ([], .start)
  else if isWord c then ([], .word [c])
  else if isOperator c then ([], .operator [c])
  else if c = 45#8 then ([], .dash)
  else if c = 47#8 then ([], .slash)
  else if c = 35#8 then ([], .lineComment)
  else
    match quote? c with
    | some q => ([], .quoted q [])
    | none => ([.symbol c], .start)

def next (m : Mode) (c : BitVec 8) : List Token × Mode :=
  match m.continue? c with
  | some m' => ([], m')
  | none => (m.flush ++ (begin c).1, (begin c).2)

def scan (m : Mode) : List (BitVec 8) → List Token × Mode
  | [] => ([], m)
  | c :: cs =>
    let now := next m c
    let rest := scan now.2 cs
    (now.1 ++ rest.1, rest.2)

def tokensFrom (m : Mode) (s : List (BitVec 8)) : List Token := (scan m s).1 ++ (scan m s).2.flush

lemma tokensFrom_cons (m : Mode) (c : BitVec 8) (s : List (BitVec 8)) :
    tokensFrom m (c :: s) = (next m c).1 ++ tokensFrom (next m c).2 s := by
  simp only [tokensFrom, scan, append_assoc]

lemma tokensFrom_append (m : Mode) (p s : List (BitVec 8)) :
    tokensFrom m (p ++ s) = (scan m p).1 ++ tokensFrom (scan m p).2 s := by
  induction p generalizing m with
  | nil => rfl
  | cons c p ih => rw [cons_append, tokensFrom_cons, ih, scan, append_assoc]

lemma next_semicolon {m : Mode} (h : m.outside = true) :
    next m 59#8 = (m.flush ++ [Token.symbol 59#8], .start) := by
  have hbegin : begin 59#8 = ([.symbol 59#8], .start) := by decide
  have hnone : m.continue? 59#8 = none := by
    cases m with
    | word bytes => rw [Mode.continue?, if_neg (by simp [isWord, isDigit])]
    | closed q bytes => cases q <;> rfl
    | start | operator bytes | dash | dashes | slash => rfl
    | _ => cases h
  rw [next, hnone, hbegin]

def Token.isLiteral : Token → Bool
  | .quoted q _ => decide (q ≠ .back)
  | .word (c :: _) => isDigit c
  | _ => false

/-- A lexer of simple statements; it has no dotted names, so that `t.1` is three tokens. -/
def textLexer : SqlLexer where
  Token := Token
  tokens := tokensFrom .start
  Outside p := (scan .start p).2.outside = true
  Literal t := t.isLiteral = true
  semicolon := .symbol 59#8
  outside_nil := rfl
  tokens_semicolon {p} hp s := by
    have hp' : tokensFrom .start p = (scan .start p).1 ++ (scan .start p).2.flush := rfl
    rw [tokensFrom_append, tokensFrom_cons, next_semicolon hp, hp']
    simp only [append_assoc, cons_append, nil_append]

example : tokensFrom .start [97#8, 60#8, 61#8, 39#8, 92#8, 39#8, 39#8, 45#8, 45#8, 32#8, 59#8] =
    [.word [97#8], .operator [60#8, 61#8], .quoted .single [39#8]] := by decide

end SqlText

end Library
