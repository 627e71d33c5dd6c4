import CreatidyKernel.Codec.Records
import CreatidyKernel.Lib.Action
import CreatidyKernel.Lib.Runs

set_option relaxedAutoImplicit false
set_option autoImplicit false

/-!
# The stdio transport of the app-server

A connection writes requests, one JSON text on a line, and reads lines: notifications, which it
keeps, and the answer to the request that waits. The bytes the app-server writes are a stream; how
many of them a read returns, and which writes and reads fail, is an argument of every call.

## Main definitions

* `Stdio.Raised` — the classes of exceptions.
* `Stdio.CodexStdio` — the connection.
* `Stdio.exchange`, `Stdio.request`, `Stdio.drainNotifications` — its operations.
* `Stdio.connect`, `Stdio.next` — the connection as a state machine.
-/

namespace CreatidyKernel

open Checked

namespace Stdio

/-- The bytes of a line or of a stream. -/
abbrev Bytes := List UInt8

/-- The fields of a JSON object. -/
abbrev Fields := List (String × Json)

/-- What ends a line. -/
def newline : UInt8 := 10

/-! ## Exceptions -/

/-- What `json.loads` and `json.dumps` raise. -/
inductive Fault
  /-- `JSONDecodeError`. -/
  | malformed
  /-- `UnicodeError`. -/
  | unicode
  /-- Another `ValueError`, or a `TypeError`. -/
  | value
  /-- Anything else. -/
  | other
deriving DecidableEq, Repr

/-- What ends a read or a write. -/
inductive Break
  /-- The descriptor fails. -/
  | os
  /-- The deadline passes. -/
  | timeout
  /-- Anything else, such as an interrupt. -/
  | other
deriving DecidableEq, Repr

/-- What a call raises. -/
inductive Raised
  /-- `CodexRPCError`. -/
  | rpc (code : ℤ) (message : String)
  /-- `ValueError` or `TypeError`, of no class below. -/
  | value (message : String)
  /-- `JSONDecodeError`. -/
  | malformed
  /-- `UnicodeError`. -/
  | unicode
  /-- `OSError`. -/
  | os (message : String)
  /-- `TimeoutError`. -/
  | timeout (message : String)
  /-- `OverflowError`. -/
  | overflow (message : String)
  /-- Anything else. -/
  | other
deriving DecidableEq, Repr

/-- The exception of a fault. -/
def Fault.raised : Fault → Raised
  | .malformed => .malformed
  | .unicode => .unicode
  | .value => .value ""
  | .other => .other

/-- The exception of a break. -/
def Break.raised (timeout : String) : Break → Raised
  | .os => .os ""
  | .timeout => .timeout timeout
  | .other => .other

/-! ## The connection -/

/-- How a connection was built, and the interpreter's `json.loads` of a line. -/
structure Config where
  maxBytes : ℕ
  maxBytes_pos : 0 < maxBytes
  retainNotifications : Bool
  loads : Bytes → Except Fault Json

/-- `CodexStdio`. The bytes that are not read yet are those the app-server writes. No operation
looks at `written`, the bytes that reached the app-server, at `taken`, the lines that were taken
off the buffer, or at `returned`, the notifications that were returned. -/
structure CodexStdio where
  isOpen : Bool
  nextId : ℕ
  pending : Bytes
  notifications : List Fields
  notificationBytes : ℕ
  unread : Bytes
  written : Bytes
  taken : List Bytes
  returned : List Fields

/-- A connection to an app-server that will write some bytes. -/
def CodexStdio.fresh (stream : Bytes) : CodexStdio := ⟨true, 1, [], [], 0, stream, [], [], []⟩

/-- What an operation does to a connection. -/
abbrev Do := Action CodexStdio Raised

/-- An operation that raises unless a condition holds. -/
def ensure (p : Prop) [Decidable p] (e : Raised) : Do Unit := Action.of (check p e)

/-! ## Writing -/

/-- How a write goes: it breaks after some bytes, or not at all. -/
structure Delivery where
  count : ℕ
  broken : Option Break

/-- The text of a message on its line. -/
def encode (message : Fields) : Bytes :=
  (Json.print (.obj message)).map (fun c => UInt8.ofNat c.toNat) ++ [newline]

/-- `_send`, where the parameters may have no JSON text. -/
def send (cfg : Config) (message : Except Fault Fields) (delivery : Delivery) : Do Unit := do
  let s ← Action.read
  ensure (s.isOpen = true) (.os "Codex transport closed")
  let message ← Action.of (message.mapError Fault.raised)
  let data := encode message
  ensure (data.length ≤ cfg.maxBytes) (.value "Codex request exceeds limit")
  match delivery.broken with
  | some b =>
    Action.write fun s => { s with written := s.written ++ data.take delivery.count }
    Action.raise (b.raised "Codex request write timed out")
  | none => Action.write fun s => { s with written := s.written ++ data }

/-! ## Reading -/

/-- How a read goes: it returns at most some bytes, or breaks. -/
inductive Poll
  | ready (count : ℕ)
  | broken (b : Break)

/-- The bytes one read returns. -/
def chunk (s : CodexStdio) (count limit : ℕ) : Bytes := s.unread.take (min count (min 8192 limit))

/-- The bytes of a read go to the buffer. -/
def CodexStdio.receive (s : CodexStdio) (bytes : Bytes) : CodexStdio :=
  { s with pending := s.pending ++ bytes, unread := s.unread.drop bytes.length }

/-- The first line goes from the buffer. -/
def CodexStdio.takeLine (s : CodexStdio) : CodexStdio :=
  { s with
    pending := (s.pending.dropWhile (· ≠ newline)).tail
    taken := s.taken ++ [s.pending.takeWhile (· ≠ newline)] }

/-- Take the first line off the buffer. -/
def partition : Do Bytes := do
  let s ← Action.read
  Action.write CodexStdio.takeLine
  return s.pending.takeWhile (· ≠ newline)

/-- The reads of `_read_line` until the buffer holds a line, with those that are left. -/
def fill (cfg : Config) : List Poll → Do (List Poll)
  | [] => do
    let s ← Action.read
    if newline ∈ s.pending then return []
    else Action.raise (.timeout "Codex response timed out")
  | poll :: polls => do
    let s ← Action.read
    if newline ∈ s.pending then return poll :: polls
    else
      match poll with
      | .broken b => Action.raise (b.raised "Codex response timed out")
      | .ready count =>
        let bytes := chunk s count (cfg.maxBytes + 1 - s.pending.length)
        ensure (bytes ≠ []) (.os "Codex stdout closed before response")
        Action.write fun s => s.receive bytes
        ensure (s.pending.length + bytes.length ≤ cfg.maxBytes)
          (.overflow "Codex response exceeds limit")
        fill cfg polls

/-- `_read_line`. -/
def readLine (cfg : Config) (polls : List Poll) : Do (Bytes × List Poll) := do
  let s ← Action.read
  ensure (s.isOpen = true) (.os "Codex transport closed")
  let polls ← fill cfg polls
  let line ← partition
  return (line, polls)

/-! ## Messages -/

/-- The field is there. -/
def has (obj : Fields) (key : String) : Prop := key ∈ obj.map Prod.fst

instance (obj : Fields) (key : String) : Decidable (has obj key) :=
  inferInstanceAs (Decidable (_ ∈ _))

/-- The value is an object. -/
def isObject : Json → Bool
  | .obj _ => true
  | _ => false

/-- The value is a text that is not empty. -/
def isText : Json → Bool
  | .str s => s != ""
  | _ => false

/-- `_decode`. -/
def decode (cfg : Config) (line : Bytes) : Except Raised Fields :=
  match cfg.loads line with
  | .error f => .error f.raised
  | .ok (.obj fields) => do
    check (has fields "jsonrpc" → Codec.getField fields "jsonrpc" = .str "2.0")
      (.os "invalid Codex JSON-RPC version")
    return fields
  | .ok _ => .error (.os "invalid Codex JSON-RPC message")

/-- The checks of a notification. -/
def checkNotification (obj : Fields) : Except Raised Unit := do
  check (isText (Codec.getField obj "method") = true ∧ ¬has obj "id")
    (.os "unsupported Codex server request")
  check (¬has obj "result" ∧ ¬has obj "error" ∧
      (has obj "params" → isObject (Codec.getField obj "params") = true))
    (.os "invalid Codex notification envelope")

/-- `_buffer_notification`. -/
def bufferNotification (cfg : Config) (obj : Fields) (size : ℕ) : Do Unit := do
  Action.of (checkNotification obj)
  if cfg.retainNotifications = false then return ()
  else
    let s ← Action.read
    Action.write fun s => { s with notificationBytes := s.notificationBytes + size }
    ensure (s.notificationBytes + size ≤ cfg.maxBytes)
      (.overflow "Codex notification buffer exceeds limit")
    Action.write fun s => { s with notifications := s.notifications ++ [obj] }

/-- What the answer to a request says: its result, or an error of the native server. -/
def answer (identifier : ℕ) (obj : Fields) : Except Raised Fields := do
  check (Codec.getField obj "id" = .int identifier) (.os "uncorrelated Codex response")
  if has obj "error" then
    match Codec.getField obj "error" with
    | .obj error =>
      match Codec.getField error "code", Codec.getField error "message" with
      | .int code, .str message => .error (.rpc code message)
      | _, _ => .error (.os "invalid Codex RPC error")
    | _ => .error (.os "invalid Codex RPC error")
  else
    match Codec.getField obj "result" with
    | .obj result => .ok result
    | _ => .error (.os "invalid Codex RPC result")

/-- The loop of `_exchange`. Every line counts at least one byte, so the limit of an exchange
bounds how many lines it takes. -/
def await (cfg : Config) (identifier : ℕ) : ℕ → List Poll → ℕ → Do Fields
  | 0, _, _ => Action.raise (.overflow "Codex exchange exceeds limit")
  | fuel + 1, polls, consumed => do
    let (line, polls) ← readLine cfg polls
    let consumed := consumed + (line.length + 1)
    ensure (consumed ≤ cfg.maxBytes) (.overflow "Codex exchange exceeds limit")
    let obj ← Action.of (decode cfg line)
    if has obj "method" then do
      bufferNotification cfg obj (line.length + 1)
      await cfg identifier fuel polls consumed
    else Action.of (answer identifier obj)

/-- `_exchange`. -/
def exchange (cfg : Config) (method : String) (params : Except Fault Json) (delivery : Delivery)
    (polls : List Poll) : Do Fields := do
  let s ← Action.read
  let identifier := s.nextId
  Action.write fun s => { s with nextId := s.nextId + 1 }
  send cfg (params.map fun params =>
    [("method", .str method), ("id", .int identifier), ("params", params)]) delivery
  await cfg identifier (cfg.maxBytes + 1) polls 0

/-! ## Calls -/

/-- `_close_unlocked`. -/
def close : Do Unit := Action.write fun s => { s with isOpen := false }

/-- `request`. -/
def request (cfg : Config) (method : String) (params : Except Fault Json) (delivery : Delivery)
    (polls : List Poll) : Do Fields := do
  ensure (method ≠ "" ∧ method ∉ ["initialize", "initialized"]) (.value "invalid Codex request")
  let s ← Action.read
  ensure (s.isOpen = true) (.os "Codex transport closed; reconcile before another request")
  match ← Action.attempt (exchange cfg method params delivery polls) with
  | .ok result => return result
  | .error (.rpc code message) => Action.raise (.rpc code message)
  | .error (.value message) => Action.raise (.value message)
  | .error e => do
    close
    Action.raise e

/-- The reads of `notifications` until none is ready. -/
def drain (cfg : Config) : List Poll → ℕ → Do Unit
  | [], _ => return ()
  | .broken b :: _, _ => Action.raise (b.raised "Codex notification drain timed out")
  | .ready count :: polls, received => do
    let s ← Action.read
    let bytes := chunk s count (cfg.maxBytes + 1 - received - s.pending.length)
    ensure (bytes ≠ []) (.os "Codex stdout closed")
    Action.write fun s => s.receive bytes
    let received := received + bytes.length
    ensure (received + (s.pending.length + bytes.length) ≤ cfg.maxBytes)
      (.overflow "Codex response exceeds limit")
    drain cfg polls received

/-- The loop of `notifications` over the lines of the buffer, each of at least one byte. -/
def takeAll (cfg : Config) : ℕ → Do Unit
  | 0 => return ()
  | fuel + 1 => do
    let s ← Action.read
    if newline ∈ s.pending then do
      let line ← partition
      let obj ← Action.of (decode cfg line)
      bufferNotification cfg obj (line.length + 1)
      takeAll cfg fuel
    else return ()

/-- The body of `notifications` on an open connection. -/
def collect (cfg : Config) (polls : List Poll) : Do Unit := do
  drain cfg polls 0
  let s ← Action.read
  takeAll cfg s.pending.length

/-- The part of `notifications` that reads. -/
def gather (cfg : Config) (polls : List Poll) : Do Unit := do
  match ← Action.attempt (collect cfg polls) with
  | .ok () => return ()
  | .error e => do
    close
    Action.raise e

/-- `notifications`. -/
def drainNotifications (cfg : Config) (polls : List Poll) : Do (List Fields) := do
  let s ← Action.read
  if s.isOpen = true then gather cfg polls
  let s ← Action.read
  Action.write fun s => { s with
    notifications := [], notificationBytes := 0, returned := s.returned ++ s.notifications }
  return s.notifications

/-- The handshake of `__init__`, which builds no connection if it raises. -/
def connect (cfg : Config) (clientInfo : Json) (deliveries : Delivery × Delivery)
    (polls : List Poll) : Do Unit := do
  let _ ← exchange cfg "initialize" (.ok (.obj [("clientInfo", clientInfo)])) deliveries.1 polls
  send cfg (.ok [("method", .str "initialized"), ("params", .obj [])]) deliveries.2

/-- The calls of a connection. -/
inductive Call
  | request (method : String) (params : Except Fault Json) (delivery : Delivery)
      (polls : List Poll)
  | notifications (polls : List Poll)
  | close

/-- A call, whose value is dropped. -/
def serve (cfg : Config) : Call → Do Unit
  | .request method params delivery polls => do
    let _ ← request cfg method params delivery polls
    return ()
  | .notifications polls => do
    let _ ← drainNotifications cfg polls
    return ()
  | .close => close

/-- The connection after a call. -/
def next (cfg : Config) (s : CodexStdio) (c : Call) : CodexStdio := (serve cfg c s).2

end Stdio

end CreatidyKernel
