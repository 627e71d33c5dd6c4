import CreatidyKernel.Lib.Action
import CreatidyKernel.Lib.Checked
import CreatidyKernel.Lib.JsonText

set_option relaxedAutoImplicit false
set_option autoImplicit false

/-!
# The sandboxed run of a verification

A verification runs in a sandbox that holds its command back until one token is written to its
gate. The event loop learns from pipes and from a pidfd what the sandbox is, stops it when it has
to, and waits for the end of all of its processes. What the system answers is a function of the
number of the question, so that the answers of a run are any answers in any order.

## Main definitions

* `Bubblewrap.World` — what the processes, the clocks, the pipes and the authorizer answer.
* `Bubblewrap.State` — the variables of the loop, with the trace of what happened.
* `Bubblewrap.openGate` — the release of the gate.
* `Bubblewrap.deliver` — what one event of a batch does.
* `Bubblewrap.run` — the run from the launched process to the receipt.
-/

namespace CreatidyKernel

namespace Bubblewrap

open Action Checked

/-- The bytes of a pipe. -/
abbrev Bytes := List UInt8

/-- The classes of exceptions; the last one stands for a loop that has not ended. -/
inductive Exn
  | os | value | key | index | type | stopIteration | other | unfinished
deriving DecidableEq

/-- The conditions of a receipt. -/
inductive Condition
  | completed | cancelled | authorizationLost | timeout | enforcementUnavailable
  | commandOrEnforcementFailed | settlementUnknown
deriving DecidableEq

/-- The files of the selector, by their keys: the output and the error stream, the lifetime pipe,
the info pipe, the pidfd of the init process and the ready pipe. -/
inductive Source
  | stdout | stderr | lifetime | info | init | ready
deriving DecidableEq

/-- `MAX_OUTPUT`. -/
def maxOutput : ℕ := 65536

/-- The fields of `/proc/…/status` that are read; each is missing or malformed on its own. -/
structure ProcessStatus where
  pid : Except Exn ℤ
  ppid : Except Exn ℤ
  nspid : Except Exn (List ℤ)
  filters : Except Exn ℤ
  mode : Except Exn ℤ

/-- What the rest of the system is, and what it answers by the number of the question. -/
structure World where
  /-- `process.pid` and `os.getpid()`. -/
  process : ℤ
  controller : ℤ
  timeoutSeconds : ℕ
  /-- `json.loads` of the bytes of a document. -/
  loads : Bytes → Except Exn Json
  cancelled : ℕ → Except Exn Bool
  clock : ℕ → Except Exn ℤ
  authorize : ℕ → ℤ → Except Exn Bool
  monotonic : ℕ → ℚ
  /-- `process.poll()`: the exit code of a process that has ended. -/
  poll : ℕ → Option ℤ
  kill : ℕ → Except Exn Unit
  /-- `process.wait(timeout=5)`; none is a timeout. -/
  wait : ℕ → Except Exn (Option ℤ)
  /-- `selector.select(0.05)`. -/
  select : ℕ → List Source
  read : ℕ → Except Exn Bytes
  /-- `_pidfd_open` of a process. -/
  pidfdOpen : ℕ → ℤ → Except Exn ℤ
  /-- `selector.register(init_pidfd, …)`. -/
  register : ℕ → Except Exn Unit
  status : ℕ → ℤ → Except Exn ProcessStatus
  /-- `live.poll(0)`: the pidfd is readable. -/
  exited : ℕ → Except Exn Bool
  /-- `os.write(gate_write, b"1")`. -/
  write : ℕ → Except Exn Unit

/-- What happened in a run. -/
inductive Event
  | cancelled (answer : Bool)
  | authorized (answer : Bool)
  /-- The answer to `process.poll()`: the process is running. -/
  | running (answer : Bool)
  /-- The answer of `_reaper_armed` about a process. -/
  | armed (pid : ℤ) (answer : Bool)
  /-- An event of the selector, with what was read: nothing at the end of a pipe, and nothing of
  the pidfd. -/
  | delivered (source : Source) (data : Bytes)
  /-- The info document names a process, and this is the parent of it. -/
  | owned (pid parent : ℤ)
  /-- The token was written to the gate. -/
  | token
  /-- A cause to stop. -/
  | cause (condition : Condition)
  /-- Waiting for the process timed out. -/
  | timedOut
deriving DecidableEq

/-- The variables of a run. -/
structure State where
  asked : ℕ
  trace : List Event
  registered : List Source
  info : Bytes
  stdout : Bytes
  stderr : Bytes
  lifetimeClosed : Bool
  initExited : Bool
  bootstrapReady : Bool
  ownedInit : Bool
  initPid : Option ℤ
  initPidfd : Option ℤ
  inheritedFilters : Option ℤ
  released : Bool
  stopping : Option ℚ
  condition : Condition
  settled : Bool
  /-- `process.returncode`. -/
  returncode : Option ℤ

/-- The variables before the loop. -/
def State.initial : State :=
  ⟨0, [], [.stdout, .stderr, .lifetime, .info, .ready], [], [], [], false, false, false, false, none,
    none, none, false, none, .completed, false, none⟩

/-- The actions of a run. -/
abbrev Act := Action State Exn

/-! ## Questions -/

/-- The answer to the next question. -/
def ask {α : Type} (answer : ℕ → Except Exn α) : Act α := do
  let s ← Action.read
  Action.write fun s => { s with asked := s.asked + 1 }
  of (answer s.asked)

/-- A change of the variables, and what it means in the trace. -/
def record (e : Event) (g : State → State) : Act Unit :=
  Action.write fun s => { g s with trace := s.trace ++ [e] }

/-- What happened is added to the trace. -/
def note (e : Event) : Act Unit := record e id

variable (w : World)

/-- `cancelled()`. -/
def cancelled : Act Bool := do
  let answer ← ask w.cancelled
  note (.cancelled answer)
  return answer

/-- `self.authorize(invocation, now)`. -/
def authorizeAt (now : ℤ) : Act Bool := do
  let answer ← ask fun n => w.authorize n now
  note (.authorized answer)
  return answer

/-- `self.authorize(invocation, self.clock())`. -/
def authorize : Act Bool := do
  let now ← ask w.clock
  authorizeAt w now

/-- `time.monotonic()`. -/
def monotonic : Act ℚ := ask fun n => .ok (w.monotonic n)

/-- `process.poll()`: an exit code that is known is not asked for again. -/
def poll : Act (Option ℤ) := do
  let s ← Action.read
  match s.returncode with
  | some code =>
    note (.running false)
    return some code
  | none =>
    let code ← ask fun n => .ok (w.poll n)
    Action.write fun s => { s with returncode := code }
    note (.running code.isNone)
    return code

/-- `process.kill()`: a process that has ended is left alone. -/
def kill : Act Unit := do
  match ← poll w with
  | some _ => return ()
  | none => ask w.kill

/-- `process.wait(timeout=5)`; none is a timeout. -/
def wait : Act (Option ℤ) := do
  let s ← Action.read
  match s.returncode with
  | some code => return some code
  | none =>
    let code ← ask w.wait
    Action.write fun s => { s with returncode := code }
    return code

/-! ## Stopping -/

/-- `condition = …`: a cause to stop. -/
def blame (condition : Condition) : Act Unit :=
  record (.cause condition) fun s => { s with condition }

/-- `process.kill()` and `stopping = time.monotonic() + 5`. -/
def stop : Act Unit := do
  kill w
  let now ← monotonic w
  Action.write fun s => { s with stopping := some (now + 5) }

/-- `if condition != "completed":` stop. -/
def stopIfBlamed : Act Unit := do
  let s ← Action.read
  if s.condition ≠ .completed then stop w else return ()

/-! ## The gate -/

/-- `_filter_count`. -/
def filterCount (status : ProcessStatus) : Except Exn ℤ := do
  let count ← status.filters
  let mode ← status.mode
  check (0 ≤ count ∧ mode = if count = 0 then 0 else 2) .value
  return count

/-- `if monitor.poll() is not None or live.poll(0):` raise. -/
def checkAlive : Act Unit := do
  match ← poll w with
  | some _ => raise .value
  | none =>
    let exited ← ask w.exited
    of (check (exited = false) .value)

/-- The comparisons of `_reaper_armed`. -/
def checkReaper (pid inherited : ℤ) (parent reaper : ProcessStatus) : Except Exn ℤ := do
  check ((← parent.pid) = w.process) .value
  check ((← parent.ppid) = w.controller) .value
  check ((← reaper.pid) = pid) .value
  check ((← reaper.ppid) = w.process) .value
  let first ← lookup .index List.head? (← reaper.nspid)
  check (first = pid) .value
  let last ← lookup .index List.getLast? (← reaper.nspid)
  check (last = 1) .value
  check ((← filterCount parent) = inherited) .value
  let count ← filterCount reaper
  check (count = inherited ∨ count = inherited + 1) .value
  return count

/-- `_reaper_armed`. -/
def reaperArmed (pid inherited : ℤ) : Act Bool := do
  checkAlive w
  let parent ← ask fun n => w.status n w.process
  let reaper ← ask fun n => w.status n pid
  let count ← of (checkReaper w pid inherited parent reaper)
  checkAlive w
  note (.armed pid (count = inherited + 1))
  return count = inherited + 1

/-- `process.poll() is not None or cancelled() or not self.authorize(…)`. -/
def lost : Act Bool := do
  match ← poll w with
  | some _ => return true
  | none =>
    match ← cancelled w with
    | true => return true
    | false =>
      let authorized ← authorize w
      return !authorized

/-- `os.write(gate_write, b"1")`. -/
def writeToken : Act Unit := do
  ask w.write
  record .token fun s => { s with released := true }

/-- The body of the `try` statement that releases the gate. -/
def openGate : Act Unit := do
  let s ← Action.read
  match s.initPid, s.initPidfd, s.inheritedFilters with
  | some pid, some _, some inherited =>
    let armed ← reaperArmed w pid inherited
    match ← lost w with
    | true => blame .authorizationLost
    | false => if armed = true then writeToken w else return ()
  | _, _, _ => raise .value

/-- The exceptions that are handled by a condition; the others end the run. -/
def handle (handled : List Exn) (m : Act Unit) : Act Unit := do
  match ← attempt m with
  | .ok () => return ()
  | .error e => if e ∈ handled then blame .enforcementUnavailable else raise e

/-- The second `if` statement of the loop. -/
def checkGate : Act Unit := do
  let s ← Action.read
  if s.stopping = none ∧ s.bootstrapReady = true ∧ s.ownedInit = true ∧ s.released = false then do
    handle [.os, .value, .key, .index] (openGate w)
    stopIfBlamed w
  else return ()

/-! ## The head of the loop -/

/-- The causes to stop a run, in the order in which they are looked for. -/
def checkCauses (deadline : ℚ) : Act Unit := do
  match ← cancelled w with
  | true => blame .cancelled
  | false =>
    match ← authorize w with
    | false => blame .authorizationLost
    | true =>
      let now ← monotonic w
      if deadline ≤ now then blame .timeout else return ()

/-- The first `if` statement of the loop. -/
def checkRun (deadline : ℚ) : Act Unit := do
  let s ← Action.read
  if s.stopping = none then do
    checkCauses w deadline
    stopIfBlamed w
  else return ()

/-- `stopping is not None and time.monotonic() >= stopping`. -/
def stopped : Act Bool := do
  let s ← Action.read
  match s.stopping with
  | none => return false
  | some until_ =>
    let now ← monotonic w
    return until_ ≤ now

/-! ## Events -/

/-- `selector.unregister(key.fileobj)`. -/
def unregister (source : Source) : Act Unit :=
  Action.write fun s => { s with registered := s.registered.filter fun r => r ≠ source }

/-- `native["child-pid"]`, if it can be the identifier of a process. -/
def childPid : Json → Except Exn ℤ
  | .obj fields => do
    match ← lookup .key (fun name => fields.lookup name) "child-pid" with
    | .int pid =>
      check (0 < pid) .value
      return pid
    | _ => .error .value
  | _ => .error .type

/-- The body of the `try` statement that reads the info document. -/
def ownInit : Act Unit := do
  let s ← Action.read
  let native ← of (w.loads s.info)
  let pid ← of (childPid native)
  let pidfd ← ask fun n => w.pidfdOpen n pid
  Action.write fun s => { s with initPidfd := some pidfd }
  let status ← ask fun n => w.status n pid
  let parent ← of status.ppid
  of (check (parent = w.process) .value)
  let own ← ask fun n => w.status n w.process
  let inherited ← of (filterCount own)
  Action.write fun s => { s with inheritedFilters := some inherited, initPid := some pid }
  ask w.register
  note (.owned pid parent)
  Action.write fun s => { s with registered := s.registered ++ [.init], ownedInit := true }

/-- An event of the lifetime pipe. -/
def deliverLifetime (data : Bytes) : Act Unit :=
  if data = [] then do
    unregister .lifetime
    record (.delivered .lifetime data) fun s =>
      { s with lifetimeClosed := true, settled := s.initExited }
  else note (.delivered .lifetime data)

/-- An event of the info pipe. -/
def deliverInfo (data : Bytes) : Act Unit :=
  if data = [] then do
    note (.delivered .info data)
    unregister .info
    handle [.os, .value, .key, .type, .stopIteration] (ownInit w)
    stopIfBlamed w
  else do
    record (.delivered .info data) fun s => { s with info := s.info ++ data }
    let s ← Action.read
    if 4096 < s.info.length then do
      blame .enforcementUnavailable
      stop w
      unregister .info
    else return ()

/-- An event of the ready pipe. -/
def deliverReady (data : Bytes) : Act Unit := do
  let s ← Action.read
  if data = [] then do
    note (.delivered .ready data)
    unregister .ready
    if s.bootstrapReady = false then do
      blame .enforcementUnavailable
      stop w
    else return ()
  else if data = [82] ∧ s.bootstrapReady = false then
    record (.delivered .ready data) fun s => { s with bootstrapReady := true }
  else do
    note (.delivered .ready data)
    blame .enforcementUnavailable
    stop w

/-- An event of an output stream. -/
def deliverOutput (source : Source) (data : Bytes) : Act Unit := do
  note (.delivered source data)
  if data = [] then unregister source
  else Action.write fun s =>
    if source = .stdout then
      { s with stdout := s.stdout ++ data.take (maxOutput - s.stdout.length) }
    else { s with stderr := s.stderr ++ data.take (maxOutput - s.stderr.length) }

/-- The init process has exited. -/
def deliverInit : Act Unit := do
  record (.delivered .init []) fun s => { s with initExited := true, settled := s.lifetimeClosed }
  unregister .init

/-- An event of a batch. -/
def deliver : Source → Act Unit
  | .init => deliverInit
  | .stdout => do deliverOutput .stdout (← ask w.read)
  | .stderr => do deliverOutput .stderr (← ask w.read)
  | .lifetime => do deliverLifetime (← ask w.read)
  | .info => do deliverInfo w (← ask w.read)
  | .ready => do deliverReady w (← ask w.read)

/-- The events of a batch, in their order. -/
def deliverAll : List Source → Act Unit
  | [] => return ()
  | source :: batch => do
    deliver w source
    deliverAll batch

/-- `selector.select(0.05)`: some of the registered files, each once. -/
def select : Act (List Source) := do
  let ready ← ask fun n => .ok (w.select n)
  let s ← Action.read
  return (ready.filter fun source => source ∈ s.registered).dedup

/-! ## The run -/

/-- The body of the loop; whether it goes on. -/
def turn (deadline : ℚ) : Act Bool := do
  checkRun w deadline
  checkGate w
  match ← stopped w with
  | true => return false
  | false =>
    let batch ← select w
    deliverAll w batch
    return true

/-- The loop, for as many turns as there is fuel. -/
def loop (deadline : ℚ) : ℕ → Act Unit
  | 0 => raise .unfinished
  | fuel + 1 => do
    let s ← Action.read
    if s.registered = [] then return ()
    else
      match ← turn w deadline with
      | false => return ()
      | true => loop deadline fuel

/-- `settled = False`. -/
def unsettle : Act Unit := do
  note .timedOut
  Action.write fun s => { s with settled := false }

/-- The loop and the wait after it. -/
def body (deadline : ℚ) (fuel : ℕ) : Act (Option ℤ) := do
  loop w deadline fuel
  match ← wait w with
  | some code => return some code
  | none =>
    unsettle
    return none

/-- The `finally` statement: a process that is still running is killed. -/
def reap : Act Unit := do
  match ← poll w with
  | some _ => return ()
  | none =>
    kill w
    match ← wait w with
    | some _ => return ()
    | none => unsettle

/-- A receipt, without the constants of the verifier. -/
structure Receipt where
  observedAt : ℤ
  exitCode : Option ℤ
  condition : Condition
  /-- `settlement == "pid_namespace_terminated"`; the scratch directory is retained otherwise. -/
  settled : Bool
  stdout : Bytes
  stderr : Bytes
deriving DecidableEq

/-- The condition of a receipt before the settlement is looked at. -/
def judge (exitCode : Option ℤ) (observedAt : ℤ) : Act Condition := do
  let s ← Action.read
  let condition :=
    if s.condition = .completed ∧ exitCode ≠ some 0 then .commandOrEnforcementFailed
    else s.condition
  let condition :=
    if condition = .completed ∧ s.released = false then .enforcementUnavailable else condition
  if condition = .completed then do
    match ← authorizeAt w observedAt with
    | true => return .completed
    | false => return .authorizationLost
  else return condition

/-- The receipt of a run that was waited for. -/
def receipt (exitCode : Option ℤ) : Act Receipt := do
  let observedAt ← ask w.clock
  let condition ← judge w exitCode observedAt
  let s ← Action.read
  return ⟨observedAt, exitCode, if s.settled = true then condition else .settlementUnknown, s.settled,
    s.stdout, s.stderr⟩

/-- The run from the launch of the process on. -/
def run (fuel : ℕ) : Act Receipt := do
  let now ← monotonic w
  match ← attempt (body w (now + w.timeoutSeconds) fuel) with
  | .error .unfinished => raise .unfinished
  | .error e =>
    reap w
    raise e
  | .ok exitCode =>
    reap w
    receipt w exitCode

end Bubblewrap

end CreatidyKernel
