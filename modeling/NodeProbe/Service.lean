import NodeProbe.Channel
import NodeProbe.Request.Dispatch

/-!
# The request service

Clients send commands over a channel to a handler that owns the node. A request brings the sender
of a channel of its own, over which its reply comes back. The handler takes the commands in the
order in which the channel gives them, and ends at a shutdown, when its running flag is cleared, or
when no client is left; then it drops its receiver, and with it whatever was not taken.
-/
namespace NodeProbe

variable {σ : Type}

inductive Message where
  /-- A batch and the time that it takes. -/
  | request (commands : List String) (micros : UInt64)
  | shutdown
deriving DecidableEq, Repr

/-- A message as it goes over the channel. -/
inductive Command where
  /-- A batch with the time that it takes and the number of its reply channel. -/
  | probe (commands : List String) (micros : UInt64) (reply : Nat)
  | shutdown

inductive HandlerPhase where
  /-- Not started yet. -/
  | waiting
  | serving
  | gone
deriving DecidableEq, Repr

/-- What became of the submission of a request: the channel of its reply, or a failure. -/
abbrev Submission (channels : Channels) := Except Failure (channels.Channel Entries)

/-- How many commands may wait for the handler. -/
def commandCapacity : Nat := 256

/-- A node with its handler and the channels to and from it. -/
structure Service (σ : Type) (channels : Channels := Channels.queues) where
  node : Node σ
  state : NodeState σ
  phase : HandlerPhase := .waiting
  running : Bool := true
  commands : channels.Channel Command := channels.bounded commandCapacity
  /-- The requests in the order of their submission. -/
  replies : List (Submission channels) := []

/-- What a client learns about its request. -/
inductive Response where
  | entries (result : Entries)
  | failed (e : Failure)
  /-- No answer yet. -/
  | pending

def handlerStopped : Failure := .channel "probe handler has stopped"

def requestDropped : Failure := .channel "probe handler dropped the request"

def noReplyWithin (limit : Duration) : Failure :=
  .timeout ("no probe reply within " ++ limit.inspect)

def handlerName : String := "probe-handler"

namespace Service

variable {channels : Channels}

/-! ## Clients -/

/-- Submits a request, unless it has to wait for room. -/
def submit (service : Service σ channels) (commands : List String) (micros : UInt64) :
    Option (Service σ channels) :=
  match channels.send service.commands (.probe commands micros service.replies.length) with
  | .accepted channel =>
    some { service with
      commands := channel
      replies := service.replies ++ [.ok (channels.bounded 1)] }
  | .refused => some { service with replies := service.replies ++ [.error handlerStopped] }
  | .full => none

/-- Submits a shutdown, unless it has to wait for room. It is not told whether it arrived. -/
def submitShutdown (service : Service σ channels) : Option (Service σ channels) :=
  match channels.send service.commands .shutdown with
  | .accepted channel => some { service with commands := channel }
  | .refused => some service
  | .full => none

/-- What a client finds that submitted the request with a number. -/
def response (service : Service σ channels) (number : Nat) : Response :=
  match service.replies[number]? with
  | some (.ok channel) =>
    match channels.receive channel with
    | .message entries _ => .entries entries
    | .idle => .pending
    | .closed => .failed requestDropped
  | some (.error e) => .failed e
  | none => .pending

/-! ## The handler -/

def changeReply (number : Nat) (change : channels.Channel Entries → channels.Channel Entries)
    (replies : List (Submission channels)) : List (Submission channels) :=
  replies.modify number (·.map change)

/-- Replies over a channel; its sender goes with the reply, whether the client is still there or
not. -/
def replyTo (channels : Channels) (entries : Entries) (channel : channels.Channel Entries) :
    channels.Channel Entries :=
  match channels.send channel entries with
  | .accepted channel => channels.dropSender channel
  | _ => channels.dropSender channel

/-- Drops a command that is not taken any more, with the sender that it brings. -/
def discard (replies : List (Submission channels)) : Command → List (Submission channels)
  | .probe _ _ number => changeReply number channels.dropSender replies
  | .shutdown => replies

def dropReceiver (service : Service σ channels) : Service σ channels :=
  let (waiting, commands) := channels.dropReceiver service.commands
  { service with phase := .gone, commands, replies := waiting.foldl discard service.replies }

def finish (service : Service σ channels) : Service σ channels :=
  { service.dropReceiver with running := false }

/-- A turn of the loop of a handler at work, up to its next look at the running flag. -/
def turn (service : Service σ channels) : Service σ channels :=
  match service.phase with
  | .serving =>
    match channels.receive service.commands with
    | .message (.probe commands micros number) channel =>
      let batch := service.node.handle micros commands service.state
      let service := { service with
        state := batch.state
        commands := channel
        replies := changeReply number (replyTo channels batch.entries) service.replies }
      if service.running then service else service.finish
    | .message .shutdown channel => { service with commands := channel }.finish
    | .idle => if service.running then service else service.finish
    | .closed => service.finish
  | _ => service

def turns : Nat → Service σ channels → Service σ channels
  | 0, service => service
  | n + 1, service => turns n service.turn

/-- Starts a handler that was not started yet. With its running flag cleared it ends at once. -/
def enter (service : Service σ channels) : Service σ channels :=
  match service.phase with
  | .waiting => if service.running then { service with phase := .serving } else service.finish
  | _ => service

/-! ## A service in use

A handler at work is given the turns that it needs at once. -/

/-- Starts the handler, which takes what waits, and finds out if no client is left. -/
def start (service : Service σ channels) : Service σ channels :=
  service.enter.turns (commandCapacity + 1)

def request (service : Service σ channels) (commands : List String) (micros : UInt64) :
    Response × Service σ channels :=
  match service.submit commands micros with
  | some submitted => (submitted.turn.response service.replies.length, submitted.turn)
  | none => (.pending, service)

/-- Sends a request whose client goes away if there is no answer within `limit`. -/
def requestWithin (service : Service σ channels) (limit : Duration) (commands : List String)
    (micros : UInt64) : Response × Service σ channels :=
  match service.request commands micros with
  | (.pending, waiting) =>
    let replies := changeReply service.replies.length (fun channel =>
      (channels.dropReceiver channel).2) waiting.replies
    (.failed (noReplyWithin limit), { waiting with replies })
  | answered => answered

def shutdown (service : Service σ channels) : Service σ channels :=
  match service.submitShutdown with
  | some submitted => submitted.turn
  | none => service

def stop (service : Service σ channels) : Service σ channels := { service with running := false }

/-- Waits for a started handler to end, which it does once its flag is cleared. -/
def join (service : Service σ channels) : Service σ channels :=
  if service.running then service else service.finish

def dropClient (service : Service σ channels) : Service σ channels :=
  { service with commands := channels.dropSender service.commands }.turn

/-- Drops the handler if it was not started. -/
def dropHandler (service : Service σ channels) : Service σ channels :=
  match service.phase with
  | .waiting => service.dropReceiver
  | _ => service

end Service

end NodeProbe
