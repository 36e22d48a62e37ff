import Megatron.Corelib.Route
import Megatron.Http.Response
import Megatron.Library.Search
import Megatron.Utils.Strings

/-!
The commands of the telnet service (`modules/telnet/telnetService.cpp`): the directories with
their commands, and what a line does that is entered (`processCommand`).
-/

namespace Megatron.Telnet

open Library Library.Http Megatron.Http

/-- The upper half of `l_table`. -/
def upperLTable : List ℕ :=
  [0x90, 0x83, 0x82, 0x83, 0x84, 0x85, 0x86, 0x87, 0x88, 0x89, 0x9a, 0x8b, 0x9c, 0x9d, 0x9e, 0x9f,
    0x90, 0x91, 0x92, 0x93, 0x94, 0x95, 0x96, 0x97, 0x98, 0x99, 0x9a, 0x9b, 0x9c, 0x9d, 0x9e, 0x9f,
    0xa0, 0xa2, 0xa2, 0xbc, 0xa4, 0xb4, 0xa6, 0xa7, 0xb8, 0xa9, 0xba, 0xab, 0xac, 0xad, 0xae, 0xbf,
    0xb0, 0xb1, 0xb3, 0xb3, 0xb4, 0xb5, 0xb6, 0xb7, 0xb8, 0xb9, 0xba, 0xbb, 0xbc, 0xbe, 0xbe, 0xbf,
    0xe0, 0xe1, 0xe2, 0xe3, 0xe4, 0xe5, 0xe6, 0xe7, 0xe8, 0xe9, 0xea, 0xeb, 0xec, 0xed, 0xee, 0xef,
    0xf0, 0xf1, 0xf2, 0xf3, 0xf4, 0xf5, 0xf6, 0xf7, 0xf8, 0xf9, 0xfa, 0xfb, 0xfc, 0xfd, 0xfe, 0xff,
    0xe0, 0xe1, 0xe2, 0xe3, 0xe4, 0xe5, 0xe6, 0xe7, 0xe8, 0xe9, 0xea, 0xeb, 0xec, 0xed, 0xee, 0xef,
    0xf0, 0xf1, 0xf2, 0xf3, 0xf4, 0xf5, 0xf6, 0xf7, 0xf8, 0xf9, 0xfa, 0xfb, 0xfc, 0xfd, 0xfe, 0xff]

def strlower (s : Bytes) : Bytes :=
  s.map fun z =>
    if z.toNat < 128 then lower z else BitVec.ofNat 8 (upperLTable.getD (z.toNat - 128) 0)

/-- `strmax`: the length of the common part. -/
def strmax : Bytes → Bytes → ℕ
  | a :: as, b :: bs => if a ≠ b then 0 else strmax as bs + 1
  | _, _ => 0

def getAutoAppendString (v : List Bytes) (templ : Bytes) : Bytes :=
  match v.filter fun s => find templ s = some 0 with
  | [] => []
  | vm₀ :: vm =>
    let max := (vm₀ :: vm).foldl (fun max s => if strmax vm₀ s < max then strmax vm₀ s else max)
      vm₀.length
    (vm₀.drop templ.length).take (max - templ.length)

structure Command where
  dstService : RouteT
  cmdRe : Bytes
  help : Bytes
  deriving DecidableEq, Repr

structure Node where
  name : Bytes
  help : Bytes
  children : List (Bytes × Node)
  commands : List (Bytes × Command)

def Node.top : Node := ⟨[], ascii "Top level commands", [], []⟩

def Node.getSubDir (n : Node) (dir : Bytes) : Option Node := n.children.lookup dir

def Node.reach (n : Node) : List Bytes → Option Node
  | [] => some n
  | dir :: dirs => (n.getSubDir dir).bind fun c => c.reach dirs

def Node.names (n : Node) : List Bytes → List Bytes
  | [] => [n.name]
  | dir :: dirs => n.name :: ((n.getSubDir dir).map fun c => c.names dirs).getD []

/-- `Node::path`: the names from the node up to the root. -/
def Node.path (root : Node) (dirs : List Bytes) : Bytes :=
  List.intercalate (ascii "/") (root.names dirs).reverse

/-! ### A session -/

/-- The class `Session`. The current directory is a list of names. -/
structure Session where
  defaultNode : List Bytes := []
  currentCommandLine : Bytes := []
  commandHistory : List Bytes := []
  curpos : ℤ := 0
  commandHistoryPos : ℤ := 0
  insertMode : Bool := true
  width : ℤ := 80
  height : ℤ := 25
  deriving DecidableEq, Repr

inductive Action where
  | write (s : Bytes)
  | writeAndClose (s : Bytes)
  | commandEntered (command path : Bytes) (route : RouteT)
  /-- A `CommonError` leaves the handler. -/
  | commonError (what : Bytes)
  deriving DecidableEq, Repr

/-- What a read does outside the session. -/
inductive Consequence where
  | entered (command path : Bytes) (route : RouteT)
  /-- The connection is closed, and its `Disaccepted` erases the session. -/
  | closed
  deriving DecidableEq, Repr

def Action.consequence : Action → Option Consequence
  | .commandEntered command path route => some (.entered command path route)
  | .writeAndClose _ => some .closed
  | _ => none

structure Service where
  deviceName : Bytes
  root : Node

/-- `regexec`: an error, or the bounds of the first match. -/
abbrev Regexec := Bytes → Bytes → Except Bytes (Option (ℕ × ℕ))

section

variable (regexec : Regexec) (svc : Service)

def Service.children (W : Session) : List (Bytes × Node) :=
  ((svc.root.reach W.defaultNode).map Node.children).getD []

def Service.commands (W : Session) : List (Bytes × Command) :=
  ((svc.root.reach W.defaultNode).map Node.commands).getD []

def promptString (W : Session) : Bytes :=
  svc.deviceName ++ ascii ":" ++ svc.root.path W.defaultNode ++ ascii "$ "

def prompt (W : Session) : Action := .write (promptString svc W)

def bright (s : Bytes) : Bytes := ascii "\x1b[1m" ++ s ++ ascii "\x1b[0m"

/-- `paramMatch`: the first match is as long as the line. -/
def paramMatch (regexp cmd : Bytes) : Except Bytes Bool :=
  match regexec (cStr regexp) (cStr cmd) with
  | .error erbuf => .error (ascii "regex '" ++ cStr regexp ++ ascii "' " ++ erbuf)
  | .ok none => .ok false
  | .ok (some (so, eo)) => .ok (eo - so = cmd.length)

/-- The loop of `processCommand`. -/
def enterCommand (W : Session) (cmd : Bytes) : List (Bytes × Command) → List Action
  | [] =>
    (if cmd ≠ [] then [.write (cmd ++ ascii ": invalid command\r\n")] else []) ++ [prompt svc W]
  | (_, c) :: commands =>
    match paramMatch regexec c.cmdRe cmd with
    | .error what => [.commonError what]
    | .ok true => [.commandEntered cmd (svc.root.path W.defaultNode) c.dstService]
    | .ok false => enterCommand W cmd commands

/-- The page of `help`. -/
def helpPage (W : Session) : List Action :=
  let path := svc.root.path W.defaultNode
  [Action.write
      (ascii "Commands in '" ++ (if path = [] then ascii "/" else path) ++ ascii "'\r\n\r\n"),
    Action.write (bright (ascii "help") ++ ascii " - display this page\r\n"),
    Action.write (bright (ascii "quit") ++ ascii " - quit console\r\n"),
    Action.write (bright (ascii "..") ++ ascii " - go to parent directory\r\n")] ++
  (svc.children W).map
    (fun i => Action.write (bright i.2.name ++ ascii " - " ++ i.2.help ++ crlf)) ++
  (svc.commands W).map
    (fun i => Action.write (bright i.2.cmdRe ++ ascii " - " ++ i.2.help ++ crlf)) ++
  [prompt svc W]

/-- `processCommand` after the line is taken. -/
def runLine (W : Session) (cmd : Bytes) : Session × List Action :=
  match splitStringDQ (ascii " \t") cmd with
  | [] => (W, enterCommand regexec svc W cmd (svc.commands W))
  | dir :: _ =>
    if strlower dir = ascii "quit" then (W, [.writeAndClose crlf])
    else if strlower dir = ascii "ls" ∨ strlower dir = ascii "help" then (W, helpPage svc W)
    else if strlower dir = ascii "cd" then (W, enterCommand regexec svc W cmd (svc.commands W))
    else if dir = ascii ".." then
      -- the parent of the root is null
      let W := { W with defaultNode := W.defaultNode.dropLast }
      (W, [prompt svc W])
    else if ((svc.root.reach W.defaultNode).bind fun N => N.getSubDir dir).isSome then
      let W := { W with defaultNode := W.defaultNode ++ [dir] }
      (W, [prompt svc W])
    else (W, enterCommand regexec svc W cmd (svc.commands W))

def processCommand (W : Session) : Session × List Action :=
  let cmd := W.currentCommandLine
  let W := { W with
    currentCommandLine := []
    commandHistory := W.commandHistory ++ [cmd]
    commandHistoryPos := 0 }
  let (W, actions) := runLine regexec svc W cmd
  (W, .write crlf :: actions)

lemma runLine_fst (W : Session) (cmd : Bytes) :
    ∃ dirs, (runLine regexec svc W cmd).1 = { W with defaultNode := dirs } := by
  rw [runLine]
  split
  · exact ⟨W.defaultNode, rfl⟩
  · split_ifs <;> exact ⟨_, rfl⟩

end

end Megatron.Telnet
