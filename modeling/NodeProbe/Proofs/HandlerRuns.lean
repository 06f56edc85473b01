import NodeProbe.Proofs.HandlerLoop

/-!
# Runs of the handler

Clients send messages while the handler is started and takes its turns. However the two interleave,
each batch in front of the first shutdown has its result as the only reply, and each request behind
it fails.
-/
namespace NodeProbe

variable {σ : Type} {channels : Channels} {view : (α : Type) → channels.Channel α → ChannelView α}
  {node : Node σ} {s : NodeState σ} {messages : List Message} {service : Service σ channels}

/-- The services that there can be when these messages were sent, one after the other. -/
inductive Reaches (node : Node σ) (s : NodeState σ) : List Message → Service σ channels → Prop where
  | fresh : Reaches node s [] { node, state := s }
  | submit {messages : List Message} {service service' : Service σ channels}
    (h : Reaches node s messages service) {m : Message}
    (hsent : service.submitMessage m = some service') : Reaches node s (messages ++ [m]) service'
  | enter {messages : List Message} {service : Service σ channels}
    (h : Reaches node s messages service) : Reaches node s messages service.enter
  | turn {messages : List Message} {service : Service σ channels}
    (h : Reaches node s messages service) : Reaches node s messages service.turn

theorem Reaches.turns (h : Reaches node s messages service) (n : Nat) :
    Reaches node s messages (service.turns n) := by
  induction n generalizing service with
  | zero => exact h
  | succ n ih => exact ih h.turn

theorem Reaches.start (h : Reaches node s messages service) :
    Reaches node s messages service.start :=
  h.enter.turns _

/-! ## What was done about the messages -/

inductive Follows (view : (α : Type) → channels.Channel α → ChannelView α) (node : Node σ)
    (s : NodeState σ) (messages : List Message) (service : Service σ channels) : Prop where
  | working (taken : List (UInt64 × List String)) (waiting : List Message)
    (hmessages : messages = taken.map .ofBatch ++ waiting)
    (hopen : Open view node s taken waiting service)
  | ended (taken : List (UInt64 × List String)) (later : List Message)
    (hmessages : messages = taken.map .ofBatch ++ .shutdown :: later)
    (hgone : Gone view node s taken later service)

/-- Sending a message keeps the service in step with the messages sent. -/
theorem Follows.submit (hchannels : channels.Lawful view) (h : Follows view node s messages service)
    {m : Message} {service' : Service σ channels}
    (hsent : service.submitMessage m = some service') :
    Follows view node s (messages ++ [m]) service' := by
  cases h with
  | working taken waiting hmessages hopen =>
    rcases Nat.lt_or_ge waiting.length commandCapacity with hroom | hfull
    · obtain ⟨service'', hsent', -, hopen'⟩ := hopen.submit hchannels hroom m
      rw [hsent, Option.some.injEq] at hsent'
      subst hsent'
      exact .working taken (waiting ++ [m]) (by rw [hmessages, List.append_assoc]) hopen'
    · rw [hopen.submit_full hchannels hfull] at hsent
      cases hsent
  | ended taken later hmessages hgone =>
    obtain ⟨service'', hsent', hgone'⟩ := hgone.submit hchannels m
    rw [hsent, Option.some.injEq] at hsent'
    subst hsent'
    refine .ended taken (later ++ [m]) ?_ hgone'
    rw [hmessages, List.append_assoc, List.cons_append]

theorem Follows.enter (h : Follows view node s messages service) :
    Follows view node s messages service.enter := by
  cases h with
  | working taken waiting hmessages hopen => exact .working taken waiting hmessages hopen.enter.2
  | ended taken later hmessages hgone =>
    refine .ended taken later hmessages ?_
    rwa [hgone.enter]

/-- A turn keeps the service in step with the messages sent, whatever it takes. -/
theorem Follows.turn (hchannels : channels.Lawful view) (h : Follows view node s messages service) :
    Follows view node s messages service.turn := by
  by_cases hphase : service.phase = .serving
  · cases h with
    | working taken waiting hmessages hopen =>
      match waiting with
      | [] =>
        rw [turn_idle hopen.running (hopen.receive_idle hchannels)]
        exact .working taken [] hmessages hopen
      | .request commands micros :: waiting =>
        refine .working (taken ++ [(micros, commands)]) waiting ?_
          (hopen.turn_request hchannels hphase).2
        rw [hmessages, List.map_append, List.append_assoc]
        rfl
      | .shutdown :: later => exact .ended taken later hmessages (hopen.turn_shutdown hchannels hphase)
    | ended taken later hmessages hgone =>
      rw [hgone.phase_eq] at hphase
      cases hphase
  · rwa [turn_of_not_serving hphase]

/-- Whatever the clients and the handler do, the messages are followed. -/
theorem Reaches.follows (hchannels : channels.Lawful view) (h : Reaches node s messages service) :
    Follows view node s messages service := by
  induction h with
  | fresh => exact .working [] [] rfl (.fresh hchannels node s)
  | submit _ hsent ih => exact ih.submit hchannels hsent
  | enter _ ih => exact ih.enter
  | turn _ ih => exact ih.turn hchannels

/-! ## What clients learn -/

namespace Service

/-- Nothing is left to do. -/
def Quiet (service : Service σ channels) : Prop :=
  service.phase = .gone ∨
    service.phase = .serving ∧ channels.receive service.commands = .idle

/-- The request with a number has these entries as its reply, and no other one. -/
def OnlyReply (service : Service σ channels) (number : Nat) (entries : Entries) : Prop :=
  ∃ channel rest, service.replies[number]? = some (.ok channel) ∧
    channels.receive channel = .message entries rest ∧ channels.receive rest = .closed

theorem OnlyReply.response {number : Nat} {entries : Entries}
    (h : service.OnlyReply number entries) : service.response number = .entries entries := by
  obtain ⟨channel, rest, hreply, hreceive, -⟩ := h
  unfold Service.response
  rw [hreply]
  dsimp only
  rw [hreceive]

/-- What a service has done about its messages. A request that has no answer yet has one when the
service is quiet. -/
structure AnswersInOrder (service : Service σ channels) (node : Node σ) (s : NodeState σ)
    (messages : List Message) : Prop where
  /-- Some of the leading batches were run, each once and in order, and in the end all of them. -/
  progress : ∃ n ≤ (leadingBatches messages).length,
    service.state = node.afterBatches ((leadingBatches messages).take n) s ∧
    (service.Quiet → n = (leadingBatches messages).length)
  ended : service.Quiet → (service.phase = .gone ↔ .shutdown ∈ messages)
  answered : ∀ i batch, (leadingBatches messages)[i]? = some batch →
    service.OnlyReply i (node.handle batch.1 batch.2
      (node.afterBatches ((leadingBatches messages).take i) s)).entries ∨
    service.response i = .pending ∧ ¬service.Quiet
  refused : ∀ i, (leadingBatches messages).length ≤ i → i < requestCount messages →
    (∃ reason, service.response i = .failed (.channel reason)) ∨
    service.response i = .pending ∧ ¬service.Quiet

end Service

section

variable {taken : List (UInt64 × List String)} {waiting later : List Message}

theorem Replies.onlyReply (hchannels : channels.Lawful view) {results : List Entries}
    {others : Submission channels → Prop} {count : Nat}
    (h : Replies view results others count service.replies) {i : Nat} {entries : Entries}
    (hentries : results[i]? = some entries) : service.OnlyReply i entries := by
  obtain ⟨reply, hreply, channel, rfl, hview⟩ := h.answered hentries
  obtain ⟨rest, hreceive, hrest⟩ := hchannels.receive_oldest (c := channel) (by rw [hview])
    (by rw [hview])
  rw [hview] at hrest
  exact ⟨channel, rest, hreply, hreceive, hchannels.receive_closed (by rw [hrest]) (by rw [hrest])⟩

theorem Open.pending (hchannels : channels.Lawful view) (h : Open view node s taken waiting service)
    {i : Nat} (hle : taken.length ≤ i) (hlt : i < taken.length + requestCount waiting) :
    service.response i = .pending := by
  rw [← Node.results_length node taken s] at hle hlt
  obtain ⟨reply, hreply, channel, rfl, hview⟩ := h.replies.other hle hlt
  rw [Service.response, hreply]
  dsimp only
  rw [hchannels.receive_idle (by rw [hview]) (by rw [hview])]

/-- A request behind the shutdown finds its reply channel without a sender. -/
theorem Gone.failed (hchannels : channels.Lawful view) (h : Gone view node s taken later service)
    {i : Nat} (hle : taken.length ≤ i) (hlt : i < taken.length + requestCount later) :
    ∃ reason, service.response i = .failed (.channel reason) := by
  rw [← Node.results_length node taken s] at hle hlt
  obtain ⟨reply, hreply, hrefused⟩ := h.replies.other hle hlt
  unfold Service.response
  rw [hreply]
  rcases hrefused with rfl | ⟨channel, rfl, hview⟩
  · exact ⟨_, rfl⟩
  · dsimp only
    rw [hchannels.receive_closed (by rw [hview]) (by rw [hview])]
    exact ⟨_, rfl⟩

/-- A quiet handler at work has nothing waiting, since any message would be taken by the next turn.
-/
theorem Open.waiting_eq_nil (hchannels : channels.Lawful view)
    (h : Open view node s taken waiting service) (hquiet : service.Quiet) : waiting = [] := by
  rcases hquiet with hgone | ⟨-, hidle⟩
  · exact absurd hgone h.phase_ne
  · cases hnumbered : numbered taken.length waiting with
    | nil =>
      have hlength := numbered_length taken.length waiting
      rw [hnumbered] at hlength
      exact List.length_eq_zero_iff.mp hlength.symm
    | cons command behind =>
      obtain ⟨channel, hreceive, -⟩ := h.receive hchannels hnumbered
      rw [hidle] at hreceive
      cases hreceive

/-- Before a shutdown is taken, the requests that were run are answered and the others wait. -/
theorem Open.answersInOrder (hchannels : channels.Lawful view)
    (h : Open view node s taken waiting service)
    (hmessages : messages = taken.map .ofBatch ++ waiting) :
    service.AnswersInOrder node s messages := by
  have hbatches : leadingBatches messages = taken ++ leadingBatches waiting := by
    rw [hmessages, leadingBatches_append]
  have hcount : requestCount messages = taken.length + requestCount waiting := by
    rw [hmessages, requestCount_append, requestCount_map]
  refine ⟨⟨taken.length, ?_, ?_, fun hquiet => ?_⟩, fun hquiet => ?_, fun i batch hbatch => ?_,
    fun i hle hlt => ?_⟩
  · rw [hbatches, List.length_append]
    omega
  · rw [hbatches, List.take_left, h.state_eq]
  · rw [hbatches, h.waiting_eq_nil hchannels hquiet]
    exact congrArg List.length (List.append_nil taken).symm
  · rw [hmessages, h.waiting_eq_nil hchannels hquiet, List.append_nil]
    exact iff_of_false h.phase_ne (not_shutdown_mem_map taken)
  · rcases Nat.lt_or_ge i taken.length with hi | hi
    · left
      rw [hbatches, List.getElem?_append_left hi] at hbatch
      rw [hbatches, List.take_append_of_le_length (Nat.le_of_lt hi)]
      exact h.replies.onlyReply hchannels (Node.results_getElem? hbatch s)
    · right
      have hlt := (List.getElem?_eq_some_iff.mp hbatch).1
      have hle := leadingBatches_length_le waiting
      rw [hbatches, List.length_append] at hlt
      refine ⟨h.pending hchannels hi (by omega), fun hquiet => ?_⟩
      rw [h.waiting_eq_nil hchannels hquiet] at hlt
      exact absurd hlt (Nat.not_lt.mpr hi)
  · right
    rw [hbatches, List.length_append] at hle
    rw [hcount] at hlt
    refine ⟨h.pending hchannels (by omega) hlt, fun hquiet => ?_⟩
    rw [h.waiting_eq_nil hchannels hquiet] at hlt
    exact absurd hlt (Nat.not_lt.mpr (Nat.le_of_add_right_le hle))

/-- Behind a shutdown every request is settled: answered before it, refused behind it. -/
theorem Gone.answersInOrder (hchannels : channels.Lawful view)
    (h : Gone view node s taken later service)
    (hmessages : messages = taken.map .ofBatch ++ .shutdown :: later) :
    service.AnswersInOrder node s messages := by
  have hbatches : leadingBatches messages = taken := by
    rw [hmessages, leadingBatches_append]
    exact List.append_nil taken
  have hcount : requestCount messages = taken.length + requestCount later := by
    rw [hmessages, requestCount_append, requestCount_map]
    rfl
  refine ⟨⟨taken.length, ?_, ?_, fun _ => ?_⟩, fun _ => ?_, fun i batch hbatch => ?_,
    fun i hle hlt => ?_⟩
  · exact Nat.le_of_eq (congrArg List.length hbatches.symm)
  · rw [hbatches, List.take_length, h.state_eq]
  · rw [hbatches]
  · rw [hmessages]
    exact iff_of_true h.phase_eq (List.mem_append_right _ List.mem_cons_self)
  · left
    rw [hbatches] at hbatch ⊢
    have hi := (List.getElem?_eq_some_iff.mp hbatch).1
    exact h.replies.onlyReply hchannels (Node.results_getElem? hbatch s)
  · left
    rw [hbatches] at hle
    rw [hcount] at hlt
    exact h.failed hchannels hle hlt

theorem Follows.answersInOrder (hchannels : channels.Lawful view)
    (h : Follows view node s messages service) : service.AnswersInOrder node s messages := by
  cases h with
  | working taken waiting hmessages hopen => exact hopen.answersInOrder hchannels hmessages
  | ended taken later hmessages hgone => exact hgone.answersInOrder hchannels hmessages

/-! ## Enough turns -/

theorem turns_of_turn_eq (h : service.turn = service) (n : Nat) : service.turns n = service := by
  induction n with
  | zero => rfl
  | succ n ih => rw [Service.turns, h, ih]

theorem Gone.turns (h : Gone view node s taken later service) (n : Nat) :
    service.turns n = service := by
  refine turns_of_turn_eq (turn_of_not_serving ?_) n
  rw [h.phase_eq]
  exact fun hserving => nomatch hserving

theorem Open.quiet (hchannels : channels.Lawful view) (h : Open view node s taken [] service)
    (hphase : service.phase = .serving) : service.Quiet :=
  .inr ⟨hphase, h.receive_idle hchannels⟩

/-- A turn for each message that waits is enough. -/
theorem Open.turns_quiet (hchannels : channels.Lawful view)
    (h : Open view node s taken waiting service) (hphase : service.phase = .serving) {n : Nat}
    (hn : waiting.length ≤ n) : (service.turns n).Quiet := by
  induction n generalizing taken waiting service with
  | zero =>
    rw [List.length_eq_zero_iff.mp (Nat.le_zero.mp hn)] at h
    exact h.quiet hchannels hphase
  | succ n ih =>
    match waiting with
    | [] =>
      rw [turns_of_turn_eq (turn_idle h.running (h.receive_idle hchannels))]
      exact h.quiet hchannels hphase
    | .request commands micros :: waiting =>
      obtain ⟨hphase', hopen⟩ := h.turn_request hchannels hphase
      exact ih hopen hphase' (Nat.le_of_succ_le_succ hn)
    | .shutdown :: later =>
      have hgone := h.turn_shutdown hchannels hphase
      rw [Service.turns, hgone.turns]
      exact .inl hgone.phase_eq

theorem Follows.start_quiet (hchannels : channels.Lawful view)
    (h : Follows view node s messages service) : service.start.Quiet := by
  unfold Service.start
  cases h with
  | working taken waiting hmessages hopen =>
    obtain ⟨hphase, hopen'⟩ := hopen.enter
    exact hopen'.turns_quiet hchannels hphase (Nat.le_succ_of_le hopen.room)
  | ended taken later hmessages hgone =>
    rw [hgone.enter, hgone.turns]
    exact .inl hgone.phase_eq

/-- A quiet service can be sent one more message, and is quiet again when it has taken it. -/
theorem Reaches.exists_submit (hchannels : channels.Lawful view)
    (h : Reaches node s messages service) (hquiet : service.Quiet) (m : Message) :
    ∃ service' : Service σ channels, Reaches node s (messages ++ [m]) service' ∧ service'.Quiet := by
  obtain ⟨service', hsent⟩ : ∃ service', service.submitMessage m = some service' := by
    cases h.follows hchannels with
    | working taken waiting hmessages hopen =>
      rw [hopen.waiting_eq_nil hchannels hquiet] at hopen
      obtain ⟨service', hsent, -, -⟩ := hopen.submit hchannels (by decide) m
      exact ⟨service', hsent⟩
    | ended taken later hmessages hgone =>
      obtain ⟨service', hsent, -⟩ := hgone.submit hchannels m
      exact ⟨service', hsent⟩
  have hreaches := h.submit hsent
  exact ⟨service'.start, hreaches.start, (hreaches.follows hchannels).start_quiet hchannels⟩

/-- Whatever the messages are, some service was sent them and has nothing left to do. -/
theorem exists_reaches (hchannels : channels.Lawful view) (node : Node σ) (s : NodeState σ)
    (messages : List Message) :
    ∃ service : Service σ channels, Reaches node s messages service ∧ service.Quiet := by
  induction messages using List.reverseRecOn with
  | nil =>
    have hfresh : Reaches node s [] ({ node, state := s } : Service σ channels) := .fresh
    exact ⟨_, hfresh.start, (hfresh.follows hchannels).start_quiet hchannels⟩
  | append_singleton messages m ih =>
    obtain ⟨service, hreaches, hquiet⟩ := ih
    exact hreaches.exists_submit hchannels hquiet m

/-! ## A request and a shutdown -/

/-- A service that was started and is asked once. -/
theorem Open.request (hchannels : channels.Lawful view) (h : Open view node s [] [] service)
    (hphase : service.phase = .serving) (commands : List String) (micros : UInt64) :
    (service.request commands micros).1 = .entries (node.handle micros commands s).entries ∧
      (service.request commands micros).2.phase = .serving ∧
      Open view node s [(micros, commands)] [] (service.request commands micros).2 := by
  obtain ⟨submitted, hsent, hphase', hopen⟩ := h.submit hchannels (by decide)
    (.request commands micros)
  obtain ⟨hserving, hopen'⟩ := hopen.turn_request hchannels (hphase'.trans hphase)
  have hlength : service.replies.length = 0 := h.replies_length
  change service.submit commands micros = some submitted at hsent
  unfold Service.request
  rw [hsent, hlength]
  exact ⟨(hopen'.replies.onlyReply hchannels rfl).response, hserving, hopen'⟩

theorem Open.shutdown (hchannels : channels.Lawful view) (h : Open view node s taken [] service)
    (hphase : service.phase = .serving) : Gone view node s taken [] service.shutdown := by
  obtain ⟨submitted, hsent, hphase', hopen⟩ := h.submit hchannels (by decide) .shutdown
  change service.submitShutdown = some submitted at hsent
  unfold Service.shutdown
  rw [hsent]
  exact hopen.turn_shutdown hchannels (hphase'.trans hphase)

theorem Open.start_idle (hchannels : channels.Lawful view) (h : Open view node s taken [] service) :
    service.start.phase = .serving ∧ Open view node s taken [] service.start := by
  obtain ⟨hphase, hopen⟩ := h.enter
  unfold Service.start
  rw [turns_of_turn_eq (turn_idle hopen.running (hopen.receive_idle hchannels))]
  exact ⟨hphase, hopen⟩

end

/-- Over channels that keep to their laws, the handler runs exactly the batches in front of the
first shutdown, each once and in order, and the result of running a batch in the state that the
earlier ones leave is the only reply to its client; requests behind the shutdown fail. This holds
for every interleaving of clients and handler, every list of messages has one, and a handler that
was started has nothing left to do after so many turns as there is room for commands. A request
with a shutdown behind it, as the program sends them, does what running the batch directly does. -/
theorem handler_answers_in_order (channels : Channels)
    (view : (α : Type) → channels.Channel α → ChannelView α) (hchannels : channels.Lawful view)
    (node : Node σ) (s : NodeState σ) :
    (∀ messages (service : Service σ channels), Reaches node s messages service →
      service.AnswersInOrder node s messages) ∧
    (∀ messages (service : Service σ channels), Reaches node s messages service →
      Reaches node s messages service.start ∧ service.start.Quiet) ∧
    (∀ messages, ∃ service : Service σ channels, Reaches node s messages service ∧ service.Quiet) ∧
    (∀ commands micros,
      let sent := ({ node, state := s } : Service σ channels).start.request commands micros
      sent.1 = .entries (node.handle micros commands s).entries ∧
      sent.2.shutdown.state = (node.handle micros commands s).state ∧
      sent.2.shutdown.phase = .gone) ∧
    (∀ config threads commands, CommandLine.requestOnce config threads commands channels =
      .entries ((CommandLine.node config threads).handle 0 commands
        (CommandLine.initialState config)).entries) := by
  refine ⟨fun messages service h => (h.follows hchannels).answersInOrder hchannels,
    fun messages service h => ⟨h.start, (h.follows hchannels).start_quiet hchannels⟩,
    exists_reaches hchannels node s, fun commands micros => ?_, fun config threads commands => ?_⟩
  · obtain ⟨hphase, hstarted⟩ := (Open.fresh hchannels node s).start_idle hchannels
    obtain ⟨hresponse, hphase', hasked⟩ := hstarted.request hchannels hphase commands micros
    have hgone := hasked.shutdown hchannels hphase'
    exact ⟨hresponse, hgone.state_eq, hgone.phase_eq⟩
  · obtain ⟨hphase, hstarted⟩ := (Open.fresh hchannels (CommandLine.node config threads)
      (CommandLine.initialState config)).start_idle hchannels
    exact (hstarted.request hchannels hphase commands 0).1

/-- Over queues, a request is answered with the count and the request behind the shutdown fails,
and when all is quiet the counter has been increased once. -/
theorem request_behind_shutdown_fails :
    let node := CommandLine.node {} (.numbered true true [])
    let s := CommandLine.initialState {}
    let increment := Message.request ["op=COUNTER.increment[]"] 3
    ∃ service : Service Counter.State Channels.queues,
      Reaches node s [increment, .shutdown, increment] service ∧ service.phase = .gone ∧
      (∃ entries, service.OnlyReply 0 entries ∧ entries.toList = [("COUNTER.increment", "1")]) ∧
      (∃ reason, service.response 1 = .failed (.channel reason)) ∧
      service.state.memory.store.count = 1 := by
  intro node s increment
  obtain ⟨hanswers, -, hexists, -, -⟩ :=
    handler_answers_in_order Channels.queues (fun _ => id) Channels.queues_lawful node s
  obtain ⟨service, hreaches, hquiet⟩ := hexists [increment, .shutdown, increment]
  obtain ⟨⟨n, -, hstate, hall⟩, hended, hanswered, hrefused⟩ := hanswers _ service hreaches
  refine ⟨service, hreaches, (hended hquiet).mpr (by decide), ?_, ?_, ?_⟩
  · rcases hanswered 0 _ rfl with honly | ⟨-, hnot⟩
    · have hone : (Value.signed 1).render = "1" := by cbv
      exact ⟨_, honly, by rw [← hone]; rfl⟩
    · exact absurd hquiet hnot
  · rcases hrefused 1 (by decide) (by decide) with hfailed | ⟨-, hnot⟩
    · exact hfailed
    · exact absurd hquiet hnot
  · rw [hstate, hall hquiet]
    rfl

end NodeProbe
