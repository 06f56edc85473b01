/-!
# Channels

A bounded channel from its senders to a receiver. How channels are made is not described here: a
service is given their operations, and what it relies on are the laws below. A queue that keeps the
messages in a list is one way to make them.
-/
namespace NodeProbe

inductive Sent (κ : Type) where
  | accepted (channel : κ)
  /-- The sender has to wait for room. -/
  | full
  /-- The receiver is gone. -/
  | refused

inductive Received (α κ : Type) where
  | message (m : α) (channel : κ)
  /-- Nothing yet. -/
  | idle
  /-- Nothing more: the senders are gone. -/
  | closed

/-- The operations on channels. -/
structure Channels where
  Channel : Type → Type
  /-- A new channel with room for so many messages. -/
  bounded : {α : Type} → Nat → Channel α
  send : {α : Type} → Channel α → α → Sent (Channel α)
  receive : {α : Type} → Channel α → Received α (Channel α)
  /-- Drops the last sender. -/
  dropSender : {α : Type} → Channel α → Channel α
  /-- Drops the receiver, and with it the messages that it gives back. -/
  dropReceiver : {α : Type} → Channel α → List α × Channel α

/-- A channel as its users see it. -/
structure ChannelView (α : Type) where
  capacity : Nat
  waiting : List α := []
  hasSender : Bool := true
  hasReceiver : Bool := true

/-- Messages are delivered first in, first out, and once a side is gone the other one is told. -/
structure Channels.Lawful (channels : Channels)
    (view : (α : Type) → channels.Channel α → ChannelView α) : Prop where
  view_bounded {α : Type} {n : Nat} (hn : 0 < n) :
    view _ (channels.bounded n : channels.Channel α) = { capacity := n }
  send_room {α : Type} {c : channels.Channel α} (h : (view _ c).hasReceiver = true)
    (hroom : (view _ c).waiting.length < (view _ c).capacity) (m : α) :
    ∃ c', channels.send c m = .accepted c' ∧
      view _ c' = { view _ c with waiting := (view _ c).waiting ++ [m] }
  send_full {α : Type} {c : channels.Channel α} (h : (view _ c).hasReceiver = true)
    (hfull : (view _ c).capacity ≤ (view _ c).waiting.length) (m : α) : channels.send c m = .full
  send_refused {α : Type} {c : channels.Channel α} (h : (view _ c).hasReceiver = false) (m : α) :
    channels.send c m = .refused
  receive_oldest {α : Type} {c : channels.Channel α} (h : (view _ c).hasReceiver = true) {m : α}
    {later : List α} (hwaiting : (view _ c).waiting = m :: later) :
    ∃ c', channels.receive c = .message m c' ∧ view _ c' = { view _ c with waiting := later }
  receive_idle {α : Type} {c : channels.Channel α} (h : (view _ c).hasSender = true)
    (hwaiting : (view _ c).waiting = []) : channels.receive c = .idle
  receive_closed {α : Type} {c : channels.Channel α} (h : (view _ c).hasSender = false)
    (hwaiting : (view _ c).waiting = []) : channels.receive c = .closed
  view_dropSender {α : Type} (c : channels.Channel α) :
    view _ (channels.dropSender c) = { view _ c with hasSender := false }
  dropReceiver_discards {α : Type} (c : channels.Channel α) :
    (channels.dropReceiver c).1 = (view _ c).waiting ∧
      view _ (channels.dropReceiver c).2 = { view _ c with waiting := [], hasReceiver := false }

/-- Channels that keep what waits in a list. -/
def Channels.queues : Channels where
  Channel := ChannelView
  bounded n := { capacity := n }
  send c m :=
    if !c.hasReceiver then .refused
    else if c.waiting.length < c.capacity then .accepted { c with waiting := c.waiting ++ [m] }
    else .full
  receive c :=
    match c.waiting with
    | m :: later => .message m { c with waiting := later }
    | [] => if c.hasSender then .idle else .closed
  dropSender c := { c with hasSender := false }
  dropReceiver c := (c.waiting, { c with waiting := [], hasReceiver := false })

/-- Lists that are appended to and taken from in front keep all the laws of channels. -/
theorem Channels.queues_lawful : Channels.queues.Lawful fun _ => id where
  view_bounded _ := rfl
  send_room {_ c} h hroom m := by
    change c.hasReceiver = true at h
    change c.waiting.length < c.capacity at hroom
    refine ⟨{ c with waiting := c.waiting ++ [m] }, ?_, rfl⟩
    simp [queues, h, hroom]
  send_full {_ c} h hfull m := by
    change c.hasReceiver = true at h
    change c.capacity ≤ c.waiting.length at hfull
    simp [queues, h, Nat.not_lt.mpr hfull]
  send_refused {_ c} h m := by
    change c.hasReceiver = false at h
    simp [queues, h]
  receive_oldest {_ c} _ m later hwaiting := by
    change c.waiting = m :: later at hwaiting
    refine ⟨{ c with waiting := later }, ?_, rfl⟩
    simp [queues, hwaiting]
  receive_idle {_ c} h hwaiting := by
    change c.hasSender = true at h
    change c.waiting = [] at hwaiting
    simp [queues, h, hwaiting]
  receive_closed {_ c} h hwaiting := by
    change c.hasSender = false at h
    change c.waiting = [] at hwaiting
    simp [queues, h, hwaiting]
  view_dropSender _ := rfl
  dropReceiver_discards _ := ⟨rfl, rfl⟩

end NodeProbe
