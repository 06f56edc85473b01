import NodeProbe.CommandLine
import NodeProbe.Proofs.Accounting

/-!
# The handler loop

While clients go on sending, the handler takes one command in each turn. The order of the messages
alone decides what is done: a batch in front of the first shutdown is run once and answered once,
and nothing behind it is run. What is said of a channel is said of its view, so it rests on the laws
of channels and on nothing else.
-/
namespace NodeProbe

variable {σ : Type}

/-! ## What messages ask for -/

/-- The batches in front of the first shutdown. -/
def leadingBatches : List Message → List (UInt64 × List String)
  | .request commands micros :: later => (micros, commands) :: leadingBatches later
  | _ => []

def Message.ofBatch (batch : UInt64 × List String) : Message := .request batch.2 batch.1

theorem leadingBatches_append (batches : List (UInt64 × List String)) (messages : List Message) :
    leadingBatches (batches.map .ofBatch ++ messages) = batches ++ leadingBatches messages := by
  induction batches with
  | nil => rfl
  | cons batch batches ih => exact congrArg (batch :: ·) ih

theorem not_shutdown_mem_map (batches : List (UInt64 × List String)) :
    Message.shutdown ∉ batches.map .ofBatch := by
  intro h
  obtain ⟨batch, -, hbatch⟩ := List.mem_map.mp h
  cases hbatch

def requestCount : List Message → Nat
  | [] => 0
  | .request _ _ :: later => requestCount later + 1
  | .shutdown :: later => requestCount later

theorem requestCount_append (messages later : List Message) :
    requestCount (messages ++ later) = requestCount messages + requestCount later := by
  induction messages with
  | nil => exact (Nat.zero_add _).symm
  | cons message messages ih =>
    cases message with
    | request commands micros =>
      rw [List.cons_append, requestCount, requestCount, ih, Nat.add_right_comm]
    | shutdown => exact ih

theorem requestCount_map (batches : List (UInt64 × List String)) :
    requestCount (batches.map .ofBatch) = batches.length := by
  induction batches with
  | nil => rfl
  | cons batch batches ih => exact congrArg (· + 1) ih

theorem leadingBatches_length_le (messages : List Message) :
    (leadingBatches messages).length ≤ requestCount messages := by
  induction messages with
  | nil => exact Nat.le_refl 0
  | cons message messages ih =>
    cases message with
    | request commands micros => exact Nat.succ_le_succ ih
    | shutdown => exact Nat.zero_le _

/-- The commands of messages, whose requests are numbered from `n` on. -/
def numbered (n : Nat) : List Message → List Command
  | [] => []
  | .request commands micros :: later => .probe commands micros n :: numbered (n + 1) later
  | .shutdown :: later => .shutdown :: numbered n later

/-- Requests sent later have later numbers. -/
theorem numbered_append (n : Nat) (messages later : List Message) :
    numbered n (messages ++ later) =
      numbered n messages ++ numbered (n + requestCount messages) later := by
  induction messages generalizing n with
  | nil => rfl
  | cons message messages ih =>
    cases message with
    | request commands micros =>
      rw [List.cons_append, numbered, ih, requestCount, Nat.add_right_comm n, Nat.add_assoc]
      rfl
    | shutdown => exact congrArg (_ :: ·) (ih n)

theorem numbered_length (n : Nat) (messages : List Message) :
    (numbered n messages).length = messages.length := by
  induction messages generalizing n with
  | nil => rfl
  | cons message messages ih =>
    cases message <;> exact congrArg (· + 1) (ih _)

namespace Node

/-- The results of batches, each run in the state that those in front of it leave. -/
def results (node : Node σ) : List (UInt64 × List String) → NodeState σ → List Entries
  | [], _ => []
  | batch :: later, s =>
    let handled := node.handle batch.1 batch.2 s
    handled.entries :: node.results later handled.state

theorem results_append (node : Node σ) (batches later : List (UInt64 × List String))
    (s : NodeState σ) : node.results (batches ++ later) s =
      node.results batches s ++ node.results later (node.afterBatches batches s) := by
  induction batches generalizing s with
  | nil => rfl
  | cons batch batches ih =>
    rw [List.cons_append, results, ih]
    rfl

theorem results_length (node : Node σ) (batches : List (UInt64 × List String)) (s : NodeState σ) :
    (node.results batches s).length = batches.length := by
  induction batches generalizing s with
  | nil => rfl
  | cons batch batches ih => rw [results, List.length_cons, ih, List.length_cons]

/-- The result of a batch is that of its run in the state that the batches before it leave. -/
theorem results_getElem? {node : Node σ} {batches : List (UInt64 × List String)} {i : Nat}
    {batch : UInt64 × List String} (h : batches[i]? = some batch) (s : NodeState σ) :
    (node.results batches s)[i]? =
      some (node.handle batch.1 batch.2 (node.afterBatches (batches.take i) s)).entries := by
  induction batches generalizing i s with
  | nil => cases h
  | cons first batches ih =>
    cases i with
    | zero =>
      cases h
      rfl
    | succ i => exact ih h _

end Node

/-! ## Replies -/

section

variable {channels : Channels} {view : (α : Type) → channels.Channel α → ChannelView α}

theorem changeReply_append (answered later : List (Submission channels))
    (reply : Submission channels)
    (change : channels.Channel Entries → channels.Channel Entries) :
    Service.changeReply answered.length change (answered ++ reply :: later) =
      answered ++ reply.map change :: later := by
  induction answered with
  | nil => rfl
  | cons first answered ih => exact congrArg (first :: ·) ih

/-- When commands are discarded, the senders of their replies go with them. -/
theorem foldl_discard_numbered (waiting : List Message)
    {answered unanswered : List (Submission channels)}
    (h : unanswered.length = requestCount waiting) :
    (numbered answered.length waiting).foldl Service.discard (answered ++ unanswered) =
      answered ++ unanswered.map (·.map channels.dropSender) := by
  induction waiting generalizing answered unanswered with
  | nil =>
    rw [List.length_eq_zero_iff.mp h]
    rfl
  | cons message waiting ih =>
    cases message with
    | shutdown => exact ih h
    | request commands micros =>
      cases unanswered with
      | nil => cases h
      | cons reply unanswered =>
        have hlater := @ih (answered ++ [reply.map channels.dropSender]) unanswered (Nat.succ.inj h)
        rw [List.length_append, List.append_assoc, List.append_assoc] at hlater
        rw [numbered, List.foldl_cons, Service.discard, changeReply_append]
        exact hlater

/-- The reply has come, and it is the only one. -/
def Answered (view : (α : Type) → channels.Channel α → ChannelView α) (entries : Entries)
    (reply : Submission channels) : Prop :=
  ∃ channel, reply = .ok channel ∧
    view _ channel = { capacity := 1, waiting := [entries], hasSender := false }

def Unanswered (view : (α : Type) → channels.Channel α → ChannelView α)
    (reply : Submission channels) : Prop :=
  ∃ channel, reply = .ok channel ∧ view _ channel = { capacity := 1 }

def Refused (view : (α : Type) → channels.Channel α → ChannelView α)
    (reply : Submission channels) : Prop :=
  reply = .error handlerStopped ∨
    ∃ channel, reply = .ok channel ∧ view _ channel = { capacity := 1, hasSender := false }

theorem Unanswered.replyTo (hchannels : channels.Lawful view) {reply : Submission channels}
    (h : Unanswered view reply) (entries : Entries) :
    Answered view entries (reply.map (Service.replyTo channels entries)) := by
  obtain ⟨channel, rfl, hview⟩ := h
  obtain ⟨channel', hsend, hview'⟩ := hchannels.send_room (c := channel) (by rw [hview])
    (by rw [hview]; exact Nat.zero_lt_one) entries
  refine ⟨channels.dropSender channel', ?_, ?_⟩
  · rw [Except.map, Service.replyTo, hsend]
  · rw [hchannels.view_dropSender, hview', hview]
    rfl

theorem Unanswered.dropSender (hchannels : channels.Lawful view) {reply : Submission channels}
    (h : Unanswered view reply) : Refused view (reply.map channels.dropSender) := by
  obtain ⟨channel, rfl, hview⟩ := h
  exact .inr ⟨channels.dropSender channel, rfl, by rw [hchannels.view_dropSender, hview]⟩

/-- The first requests have these results, and there are so many others, with no result. -/
def Replies (view : (α : Type) → channels.Channel α → ChannelView α) (results : List Entries)
    (others : Submission channels → Prop) (count : Nat) (replies : List (Submission channels)) :
    Prop :=
  ∃ answered later, replies = answered ++ later ∧ List.Forall₂ (Answered view) results answered ∧
    later.length = count ∧ ∀ reply ∈ later, others reply

variable {results : List Entries} {others : Submission channels → Prop} {count : Nat}
  {replies : List (Submission channels)}

theorem Replies.length (h : Replies view results others count replies) :
    replies.length = results.length + count := by
  obtain ⟨answered, later, rfl, hanswered, hcount, -⟩ := h
  rw [List.length_append, hanswered.length_eq, hcount]

theorem Replies.concat (h : Replies view results others count replies)
    {reply : Submission channels} (hreply : others reply) :
    Replies view results others (count + 1) (replies ++ [reply]) := by
  obtain ⟨answered, later, rfl, hanswered, hcount, hlater⟩ := h
  refine ⟨answered, later ++ [reply], List.append_assoc _ _ _, hanswered, ?_, ?_⟩
  · rw [List.length_append, hcount, List.length_singleton]
  · exact List.forall_mem_append.mpr ⟨hlater, List.forall_mem_singleton.mpr hreply⟩

theorem Replies.answered (h : Replies view results others count replies) {i : Nat}
    {entries : Entries} (hentries : results[i]? = some entries) :
    ∃ reply, replies[i]? = some reply ∧ Answered view entries reply := by
  obtain ⟨answered, later, rfl, hanswered, -, -⟩ := h
  obtain ⟨hi, rfl⟩ := List.getElem?_eq_some_iff.mp hentries
  have hi' : i < answered.length := hanswered.length_eq ▸ hi
  refine ⟨answered[i], ?_, hanswered.get hi hi'⟩
  rw [List.getElem?_append_left hi', List.getElem?_eq_getElem hi']

theorem Replies.other (h : Replies view results others count replies) {i : Nat}
    (hle : results.length ≤ i) (hlt : i < results.length + count) :
    ∃ reply, replies[i]? = some reply ∧ others reply := by
  obtain ⟨answered, later, rfl, hanswered, hcount, hlater⟩ := h
  rw [hanswered.length_eq] at hle hlt
  have hi : i - answered.length < later.length := by omega
  refine ⟨later[i - answered.length], ?_, hlater _ (List.getElem_mem hi)⟩
  rw [List.getElem?_append_right hle, List.getElem?_eq_getElem hi]

/-- The oldest request without a result is answered. -/
theorem Replies.answer (hchannels : channels.Lawful view)
    (h : Replies view results (Unanswered view) (count + 1) replies) (entries : Entries) :
    Replies view (results ++ [entries]) (Unanswered view) count
      (Service.changeReply results.length (Service.replyTo channels entries) replies) := by
  obtain ⟨answered, later, rfl, hanswered, hcount, hlater⟩ := h
  cases later with
  | nil => cases hcount
  | cons reply later =>
    obtain ⟨hreply, hlater⟩ := List.forall_mem_cons.mp hlater
    have hreply' := hreply.replyTo hchannels entries
    refine ⟨answered ++ [reply.map (Service.replyTo channels entries)], later, ?_, ?_,
      Nat.succ.inj hcount, hlater⟩
    · rw [hanswered.length_eq, changeReply_append, List.append_assoc]
      rfl
    · exact List.rel_append hanswered (.cons hreply' .nil)

/-- The requests without a result are discarded. -/
theorem Replies.discard (hchannels : channels.Lawful view) {waiting : List Message}
    (h : Replies view results (Unanswered view) (requestCount waiting) replies) :
    Replies view results (Refused view) (requestCount waiting)
      ((numbered results.length waiting).foldl Service.discard replies) := by
  obtain ⟨answered, later, rfl, hanswered, hcount, hlater⟩ := h
  refine ⟨answered, later.map (·.map channels.dropSender), ?_, hanswered, ?_, fun reply hreply => ?_⟩
  · rw [hanswered.length_eq, foldl_discard_numbered waiting hcount]
  · rw [List.length_map, hcount]
  · obtain ⟨reply, hmem, rfl⟩ := List.mem_map.mp hreply
    exact (hlater reply hmem).dropSender hchannels

/-! ## The loop -/

/-- Sends a message, unless it has to wait for room. -/
def Service.submitMessage (service : Service σ channels) : Message → Option (Service σ channels)
  | .request commands micros => service.submit commands micros
  | .shutdown => service.submitShutdown

/-- The handler has run some batches and has not ended; the messages behind them wait. -/
structure Open (view : (α : Type) → channels.Channel α → ChannelView α) (node : Node σ)
    (s : NodeState σ) (taken : List (UInt64 × List String)) (waiting : List Message)
    (service : Service σ channels) : Prop where
  node_eq : service.node = node
  state_eq : service.state = node.afterBatches taken s
  phase_ne : service.phase ≠ .gone
  running : service.running = true
  room : waiting.length ≤ commandCapacity
  commands : view _ service.commands =
    { capacity := commandCapacity, waiting := numbered taken.length waiting }
  replies : Replies view (node.results taken s) (Unanswered view) (requestCount waiting)
    service.replies

/-- The handler has run some batches and has ended at the shutdown behind them. -/
structure Gone (view : (α : Type) → channels.Channel α → ChannelView α) (node : Node σ)
    (s : NodeState σ) (taken : List (UInt64 × List String)) (later : List Message)
    (service : Service σ channels) : Prop where
  state_eq : service.state = node.afterBatches taken s
  phase_eq : service.phase = .gone
  commands : (view _ service.commands).hasReceiver = false
  replies : Replies view (node.results taken s) (Refused view) (requestCount later) service.replies

variable {node : Node σ} {s : NodeState σ} {taken : List (UInt64 × List String)}
  {waiting later : List Message} {service : Service σ channels}

theorem Open.fresh (hchannels : channels.Lawful view) (node : Node σ) (s : NodeState σ) :
    Open view node s [] [] ({ node, state := s } : Service σ channels) where
  node_eq := rfl
  state_eq := rfl
  phase_ne h := by cases h
  running := rfl
  room := Nat.zero_le _
  commands := hchannels.view_bounded (by decide)
  replies := ⟨[], [], rfl, .nil, rfl, List.forall_mem_nil _⟩

theorem Open.replies_length (h : Open view node s taken waiting service) :
    service.replies.length = taken.length + requestCount waiting := by
  rw [h.replies.length, Node.results_length]

theorem Open.hasReceiver (h : Open view node s taken waiting service) :
    (view _ service.commands).hasReceiver = true := by
  rw [h.commands]

theorem Open.waiting_length (h : Open view node s taken waiting service) :
    (view _ service.commands).waiting.length = waiting.length := by
  rw [h.commands, numbered_length]

theorem Open.capacity_eq (h : Open view node s taken waiting service) :
    (view _ service.commands).capacity = commandCapacity := by
  rw [h.commands]

theorem submitMessage_request {commands : List String} {micros : UInt64}
    {channel : channels.Channel Command}
    (hsend : channels.send service.commands (.probe commands micros service.replies.length) =
      .accepted channel) :
    service.submitMessage (.request commands micros) = some { service with
      commands := channel
      replies := service.replies ++ [.ok (channels.bounded 1)] } := by
  rw [Service.submitMessage, Service.submit, hsend]

theorem submitMessage_shutdown {channel : channels.Channel Command}
    (hsend : channels.send service.commands .shutdown = .accepted channel) :
    service.submitMessage .shutdown = some { service with commands := channel } := by
  rw [Service.submitMessage, Service.submitShutdown, hsend]

/-- While there is room a message gets in. -/
theorem Open.submit (hchannels : channels.Lawful view) (h : Open view node s taken waiting service)
    (hroom : waiting.length < commandCapacity) (m : Message) :
    ∃ service', service.submitMessage m = some service' ∧ service'.phase = service.phase ∧
      Open view node s taken (waiting ++ [m]) service' := by
  have hplace : (view _ service.commands).waiting.length < (view _ service.commands).capacity := by
    rwa [h.waiting_length, h.capacity_eq]
  have hroom' : (waiting ++ [m]).length ≤ commandCapacity := by
    rw [List.length_append]
    exact hroom
  cases m with
  | request commands micros =>
    obtain ⟨channel, hsend, hview⟩ := hchannels.send_room h.hasReceiver hplace
      (.probe commands micros service.replies.length)
    have hreply : Unanswered view (.ok (channels.bounded 1)) :=
      ⟨_, rfl, hchannels.view_bounded Nat.zero_lt_one⟩
    refine ⟨_, submitMessage_request hsend, rfl, h.node_eq, h.state_eq, h.phase_ne, h.running,
      hroom', ?_, ?_⟩
    · rw [hview, h.commands, numbered_append, h.replies_length]
      rfl
    · rw [requestCount_append]
      exact h.replies.concat hreply
  | shutdown =>
    obtain ⟨channel, hsend, hview⟩ := hchannels.send_room h.hasReceiver hplace .shutdown
    refine ⟨_, submitMessage_shutdown hsend, rfl, h.node_eq, h.state_eq, h.phase_ne, h.running,
      hroom', ?_, ?_⟩
    · rw [hview, h.commands, numbered_append]
      rfl
    · rw [requestCount_append]
      exact h.replies

/-- Without room its sender has to wait. -/
theorem Open.submit_full (hchannels : channels.Lawful view)
    (h : Open view node s taken waiting service) (hfull : commandCapacity ≤ waiting.length)
    (m : Message) : service.submitMessage m = none := by
  have hplace : (view _ service.commands).capacity ≤ (view _ service.commands).waiting.length := by
    rwa [h.waiting_length, h.capacity_eq]
  cases m with
  | request commands micros =>
    rw [Service.submitMessage, Service.submit, hchannels.send_full h.hasReceiver hplace]
  | shutdown =>
    rw [Service.submitMessage, Service.submitShutdown, hchannels.send_full h.hasReceiver hplace]

/-- Behind the end a request fails, and a shutdown is of no effect. -/
theorem Gone.submit (hchannels : channels.Lawful view) (h : Gone view node s taken later service)
    (m : Message) :
    ∃ service', service.submitMessage m = some service' ∧
      Gone view node s taken (later ++ [m]) service' := by
  cases m with
  | request commands micros =>
    refine ⟨{ service with replies := service.replies ++ [.error handlerStopped] }, ?_, h.state_eq,
      h.phase_eq, h.commands, ?_⟩
    · rw [Service.submitMessage, Service.submit, hchannels.send_refused h.commands]
    · rw [requestCount_append]
      exact h.replies.concat (.inl rfl)
  | shutdown =>
    refine ⟨service, ?_, h.state_eq, h.phase_eq, h.commands, ?_⟩
    · rw [Service.submitMessage, Service.submitShutdown, hchannels.send_refused h.commands]
    · rw [requestCount_append]
      exact h.replies

/-- Starting the handler keeps what waits for it. -/
theorem Open.enter (h : Open view node s taken waiting service) :
    service.enter.phase = .serving ∧ Open view node s taken waiting service.enter := by
  unfold Service.enter
  cases hphase : service.phase with
  | waiting =>
    dsimp only
    rw [if_pos h.running]
    refine ⟨rfl, h.node_eq, h.state_eq, ?_, h.running, h.room, h.commands, h.replies⟩
    intro hgone
    cases hgone
  | serving => exact ⟨hphase, h⟩
  | gone => exact absurd hphase h.phase_ne

theorem Gone.enter (h : Gone view node s taken later service) : service.enter = service := by
  unfold Service.enter
  rw [h.phase_eq]

theorem turn_of_not_serving (h : service.phase ≠ .serving) : service.turn = service := by
  unfold Service.turn
  split
  · exact absurd ‹_› h
  · rfl

theorem turn_idle (hrunning : service.running = true)
    (hreceive : channels.receive service.commands = .idle) : service.turn = service := by
  by_cases hphase : service.phase = .serving
  · unfold Service.turn
    rw [hphase, hreceive]
    exact if_pos hrunning
  · exact turn_of_not_serving hphase

/-- A turn that takes a request runs its batch and replies on the channel the request came with. -/
theorem turn_probe (hphase : service.phase = .serving) (hrunning : service.running = true)
    {commands : List String} {micros : UInt64} {number : Nat} {channel : channels.Channel Command}
    (hreceive : channels.receive service.commands =
      .message (.probe commands micros number) channel) :
    service.turn = { service with
      state := (service.node.handle micros commands service.state).state
      commands := channel
      replies := Service.changeReply number (Service.replyTo channels
        (service.node.handle micros commands service.state).entries) service.replies } := by
  unfold Service.turn
  rw [hphase, hreceive]
  exact if_pos hrunning

theorem turn_shutdown (hphase : service.phase = .serving) {channel : channels.Channel Command}
    (hreceive : channels.receive service.commands = .message .shutdown channel) :
    service.turn = { service with commands := channel }.finish := by
  unfold Service.turn
  rw [hphase, hreceive]

/-- The oldest command is the one that the handler takes next. -/
theorem Open.receive (hchannels : channels.Lawful view)
    (h : Open view node s taken waiting service) {command : Command} {behind : List Command}
    (hnumbered : numbered taken.length waiting = command :: behind) :
    ∃ channel, channels.receive service.commands = .message command channel ∧
      view _ channel = { capacity := commandCapacity, waiting := behind } := by
  obtain ⟨channel, hreceive, hview⟩ := hchannels.receive_oldest h.hasReceiver
    (by rw [h.commands]; exact hnumbered)
  refine ⟨channel, hreceive, ?_⟩
  rw [hview, h.commands]

theorem Open.receive_idle (hchannels : channels.Lawful view)
    (h : Open view node s taken [] service) : channels.receive service.commands = .idle :=
  hchannels.receive_idle (by rw [h.commands]) (by rw [h.commands]; rfl)

/-- A batch is run in the state that the earlier ones left, and its client has the result. -/
theorem Open.turn_request (hchannels : channels.Lawful view) {commands : List String}
    {micros : UInt64} (h : Open view node s taken (.request commands micros :: waiting) service)
    (hphase : service.phase = .serving) :
    service.turn.phase = .serving ∧
      Open view node s (taken ++ [(micros, commands)]) waiting service.turn := by
  obtain ⟨channel, hreceive, hview⟩ := h.receive hchannels rfl
  rw [turn_probe hphase h.running hreceive]
  have hreplies := h.replies.answer hchannels
    (service.node.handle micros commands service.state).entries
  rw [Node.results_length] at hreplies
  refine ⟨hphase, h.node_eq, ?_, h.phase_ne, h.running, Nat.le_of_succ_le h.room, ?_, ?_⟩
  · rw [Node.afterBatches_concat, ← h.state_eq, ← h.node_eq]
  · rw [hview, List.length_append, List.length_singleton]
  · rw [Node.results_append, ← h.state_eq]
    rw [h.node_eq] at hreplies ⊢
    exact hreplies

/-- At a shutdown whatever waits behind it is discarded. -/
theorem Open.turn_shutdown (hchannels : channels.Lawful view)
    (h : Open view node s taken (.shutdown :: later) service) (hphase : service.phase = .serving) :
    Gone view node s taken later service.turn := by
  obtain ⟨channel, hreceive, hview⟩ := h.receive hchannels rfl
  obtain ⟨hdiscarded, hdropped⟩ := hchannels.dropReceiver_discards channel
  have hbehind : Replies view (node.results taken s) (Unanswered view) (requestCount later)
      service.replies := h.replies
  have hreplies := hbehind.discard hchannels
  rw [Node.results_length] at hreplies
  rw [NodeProbe.turn_shutdown hphase hreceive]
  refine ⟨h.state_eq, rfl, ?_, ?_⟩
  · show (view _ (channels.dropReceiver channel).2).hasReceiver = false
    rw [hdropped]
  · show Replies view _ _ _
      ((channels.dropReceiver channel).1.foldl Service.discard service.replies)
    rw [hdiscarded, hview]
    exact hreplies

end

end NodeProbe
