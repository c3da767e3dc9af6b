/-
  The service worker (`background/service-worker.ts`): inbound commands, the
  policy, the approvals of the user and the executor, together with the transport
  and the tab controller.

  A command that the transport accepts is checked against the session and the
  policy at once.  If the policy asks, it waits (`Waiting`): for the message that
  puts it to the user to be delivered, for the answer, and for its turn (`resume`).
  Each of these is a step of its own, so that anything can happen in between.

  An approval is known to the coordinator (`approvals.ts`) by its command id; it
  ends by the user's answer, by its timer, when the message cannot be delivered, or
  when a session is closed (`cancelAll`).
-/
import TideBot.Extension.TabController
import TideBot.Extension.Transport

namespace TideBot

open Lib

/-- A command that waits for approval. -/
structure Waiting where
  request : CommandRequest
  /-- the tab of the session when the policy was asked -/
  tabId : ℤ
  /-- the message to the user is settled -/
  prompted : Bool
  answer : Option Bool

/-- The state of the service worker. -/
structure Worker where
  transport : Transport
  tabs : TabController
  /-- `ApprovalCoordinator.pending`, with the number of the command -/
  approvals : Dict Text ℕ
  commands : Dict ℕ Waiting
  pageSignals : List Text

/-- A worker that has just started. -/
def Worker.initial : Worker := ⟨.initial, .initial, .empty, .empty, []⟩

/-- What happens to the worker.  Commands are numbered. -/
inductive WorkerEvent where
  | connection (i : Inbound)
  | tab (e : TabEvent)
  | command (i : ℕ) (value : Json) (deviceId : Option Text) (clock : Readings)
  | prompted (i : ℕ) (ok : Bool)
  | approvalResult (commandId : Text) (approved : Bool)
  | approvalTimeout (commandId : Text)
  | resume (i : ℕ) (now : ℚ)
  | observed (pageSignals : List Text)

/-- A call of `executor.execute`. -/
structure Execution where
  request : CommandRequest
  /-- the tab of the session when the policy was asked -/
  decidedFor : ℤ
  /-- the session under control now -/
  session : Option ControlledTabSession
  time : ℚ

/-- What comes of a step. -/
inductive WorkerOutput where
  | nothing
  | answered (handled : Handled)
  | refused (code : Text)
  | executes (x : Execution)

namespace Worker

variable (parseUrl : Text → Option ParsedUrl) (w : Worker)

/-! ## Approvals -/

/-- Command `i` gets its answer. -/
def settle (i : ℕ) (approved : Bool) : Dict ℕ Waiting :=
  match w.commands.get i with
  | none => w.commands
  | some c => w.commands.set i { c with answer := some approved }

/-- `resolve` -/
def resolve (commandId : Text) (approved : Bool) : Worker :=
  match w.approvals.get commandId with
  | none => w
  | some i =>
    { w with approvals := w.approvals.erase commandId, commands := w.settle i approved }

/-- `cancelAll` -/
def cancelAll : Worker := w.approvals.keys.foldl (fun w commandId => w.resolve commandId false) w

/-- `ask`, up to its await: a second approval under the same id is denied. -/
def ask (i : ℕ) (request : CommandRequest) (tabId : ℤ) : Worker :=
  match w.approvals.get request.id with
  | some _ => { w with commands := w.commands.set i ⟨request, tabId, true, some false⟩ }
  | none =>
    { w with
      approvals := w.approvals.set request.id i
      commands := w.commands.set i ⟨request, tabId, false, none⟩ }

/-! ## Commands -/

/-- `executeCommand`, up to its await. -/
def executeCommand (i : ℕ) (request : CommandRequest) (now : ℚ) : Worker × WorkerOutput :=
  match w.tabs.session with
  | none => (w, .refused (.lit "session_not_open"))
  | some session =>
    if request.sessionId ≠ session.sessionId then (w, .refused (.lit "session_access_denied"))
    else match decideBrowserAction parseUrl session.actionMode request session.url w.pageSignals with
      | .deny reason => (w, .refused (.lit reason))
      | .ask _ => (w.ask i request session.tabId, .nothing)
      | .allow _ => (w, .executes ⟨request, session.tabId, some session, now⟩)

/-- `executeCommand` after the approval. -/
def resume (i : ℕ) (now : ℚ) : Option (Worker × WorkerOutput) :=
  match w.commands.get i with
  | some ⟨request, tabId, true, some approved⟩ =>
    some ({ w with commands := w.commands.erase i },
      if approved then .executes ⟨request, tabId, w.tabs.session, now⟩
      else .refused (.lit "approval_denied"))
  | _ => none

/-- `ask` after its first await: a message that was not delivered is a denial. -/
def promptSettled (i : ℕ) (request : CommandRequest) (tabId : ℤ) (answer : Option Bool)
    (ok : Bool) : Worker :=
  let w := { w with commands := w.commands.set i ⟨request, tabId, true, answer⟩ }
  if ok then w else w.resolve request.id false

/-- The callbacks of the tab controller that touch the worker. -/
def runCallback (w : Worker) : Callback → Worker
  | .cleanUp => { w.cancelAll with pageSignals := [] }
  | _ => w

/-- One step; `none` if it cannot be taken. -/
def step (numberText : ℚ → Text) : WorkerEvent → Option (Worker × WorkerOutput)
  | .connection (.command ..) => none
  | .connection .disconnected =>
    -- `onDisconnected`
    some ({ w with transport := w.transport.left, pageSignals := [] }, .nothing)
  | .connection i =>
    (Transport.step numberText true w.transport i).map fun r => ({ w with transport := r.1 }, .nothing)
  | .tab e =>
    (w.tabs.step parseUrl e).map fun r => (r.2.foldl runCallback { w with tabs := r.1 }, .nothing)
  | .command i value deviceId clock =>
    match w.commands.get i with
    | some _ => none
    | none =>
      match w.transport.handleInboundCommand numberText true value deviceId clock with
      | (t, .answered code result) => some ({ w with transport := t }, .answered (.answered code result))
      | (t, .executed request) =>
        some ({ w with transport := t }.executeCommand parseUrl i request clock.arrival)
  | .prompted i ok =>
    match w.commands.get i with
    | some ⟨request, tabId, false, answer⟩ => some (w.promptSettled i request tabId answer ok, .nothing)
    | _ => none
  | .approvalResult commandId approved => some (w.resolve commandId approved, .nothing)
  | .approvalTimeout commandId => some (w.resolve commandId false, .nothing)
  | .resume i now => w.resume i now
  | .observed pageSignals => some ({ w with pageSignals }, .nothing)

end Worker

/-- The service worker as a machine. -/
def workerMachine (parseUrl : Text → Option ParsedUrl) (numberText : ℚ → Text) :
    Machine Worker WorkerEvent WorkerOutput :=
  ⟨fun w e => w.step parseUrl numberText e⟩

/-! ## A small instance -/

namespace Sample

def page : Text := .lit "https://a.example/"

def parseUrl (url : Text) : Option ParsedUrl :=
  if url = page then some ⟨.lit "https:", [], [], page, .lit "https://a.example"⟩ else none

/-- Task `k` opens `session` on tab `tabId`, with manual approval. -/
def opens (k : ℕ) (session : String) (tabId : ℤ) : List WorkerEvent :=
  [.tab (.openTab k ⟨.lit session, .manualApproval, .locked⟩ tabId), .tab (.fetched k (some page))]

def executesSome (tr : List (WorkerEvent × WorkerOutput)) : Bool :=
  tr.any fun x => x.2 matches .executes _

end Sample

end TideBot
