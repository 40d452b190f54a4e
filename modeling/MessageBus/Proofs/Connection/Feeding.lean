/-
Feeding a stream in chunks.

While a connection stays open, it does not matter how the incoming stream is cut. A connection that is fed any number of
chunks deals with the messages that a single reader delivers for all of them in one piece, one after another, and then
with the error behind these, if there is one (`feedAll_eq`). Each of them is dealt with by what has happened before
(`Connection.dealt_past`). So any two ways to cut a stream come to the same (`Connection.feeding_uncut`), and the size of
the reads does not show in what comes of reading a source.
-/
import MessageBus.Proofs.Connection.Calls
import MessageBus.Proofs.Connection.Closing
import MessageBus.Proofs.Connection.ReadSize
import MessageBus.Proofs.Connection.Routing

namespace MessageBus

open FrameBuffer (takeAll front Taken Call delivered firstError?)

/-! ## A single reader -/

namespace FrameBuffer

variable {buffer : FrameBuffer} {maxSize : Nat} {bytes : List UInt8}

/-- what a reader answers that is given a stream in one piece, and asked once more for an error that it has kept -/
def single (buffer : FrameBuffer) (stream : List UInt8) : List Result :=
  (buffer.callAll [.push stream, .push []]).1

theorem single_seen (h : buffer.Holds maxSize bytes none) (stream : List UInt8) :
    delivered (buffer.single stream) = (takeAll maxSize (bytes ++ stream)).messages ∧
      firstError? (buffer.single stream) = (takeAll maxSize (bytes ++ stream)).error := by
  have hnothing : Reported ⟨[], none, bytes⟩ [] none := .sound [] rfl rfl
  obtain ⟨hholds, hreported⟩ := hnothing.push h stream
  have hstream : Taken.goOn maxSize ⟨[], none, bytes⟩ stream = takeAll maxSize (bytes ++ stream) := Taken.goOn_sound rfl _
  rw [hstream] at hholds hreported
  obtain ⟨-, hall⟩ := hreported.push hholds []
  have hsame : (takeAll maxSize (bytes ++ stream)).goOn maxSize [] = takeAll maxSize (bytes ++ stream) := by
    rw [← takeAll_append, List.append_nil]
  rw [hsame] at hall
  obtain ⟨hmessages, herror, -⟩ := hall.seen (failure_push_nil hholds fun hnone => front_rest (hnone ▸ hreported).error_eq_none)
  exact ⟨hmessages, herror⟩

end FrameBuffer

namespace Connection

/-- the connection is open whenever a chunk is fed to it -/
def StaysOpen (c : Connection) : List (List UInt8) → Prop
  | [] => True
  | chunk :: chunks => c.isClosed = false ∧ ((c.feed chunk).1 = .ok () → (c.feed chunk).2.StaysOpen chunks)

/-- the same router, and a buffer that has failed or not and waits for the rest of the same bytes -/
structure Agrees (c d : Connection) : Prop where
  router : c.router = d.router
  failure : c.buffer.failure = d.buffer.failure
  pending : c.buffer.failure = none → c.buffer.pending = d.buffer.pending

/-- an open connection waits for the rest of a frame -/
def Waits (maxSize : Nat) (c : Connection) : Prop :=
  c.isClosed = false → ∃ bytes, c.buffer.Holds maxSize bytes none ∧ front maxSize bytes = .incomplete

variable {c : Connection} {chunks : List (List UInt8)} {maxSize : Nat} {bytes : List UInt8}

theorem feed_eq (hopen : c.isClosed = false) (h : c.buffer.Holds maxSize bytes none) (chunk : List UInt8) :
    ∃ buffer, c.feed chunk = dealt c.router (takeAll maxSize (bytes ++ chunk)).messages buffer
        (takeAll maxSize (bytes ++ chunk)).error ∧
      buffer.Holds maxSize (takeAll maxSize (bytes ++ chunk)).rest
        ((takeAll maxSize (bytes ++ chunk)).error.map fun _ => none) := by
  obtain ⟨buffer, hdrain, hholds⟩ := FrameBuffer.drain_extend h chunk
  exact ⟨buffer, feed_drained hopen hdrain, hholds⟩

theorem dealt_append (r : Router) (messages more : List Message) (buffer : FrameBuffer) (fault : Option Error) :
    dealt r (messages ++ more) buffer fault = dealt (messages.foldl Router.dispatch r) more buffer fault := by
  cases fault <;> rw [dealt, dealt, List.foldl_append]

/-- **Chunks are dealt with like the stream that they are cut from.** -/
theorem feedAll_eq (h : c.StaysOpen chunks) (hholds : c.buffer.Holds maxSize bytes none)
    (hfront : front maxSize bytes = .incomplete) :
    ∃ buffer, c.feedAll chunks = dealt c.router (takeAll maxSize (bytes ++ chunks.flatten)).messages buffer
        (takeAll maxSize (bytes ++ chunks.flatten)).error ∧
      buffer.failure = ((takeAll maxSize (bytes ++ chunks.flatten)).error.map fun _ => none) ∧
      ((takeAll maxSize (bytes ++ chunks.flatten)).error = none →
        buffer.pending = (takeAll maxSize (bytes ++ chunks.flatten)).rest) := by
  induction chunks generalizing c bytes with
  | nil =>
    rw [List.flatten_nil, List.append_nil, FrameBuffer.takeAll_incomplete hfront]
    exact ⟨c.buffer, rfl, hholds.failure, fun _ => hholds.pending⟩
  | cons chunk chunks ih =>
    obtain ⟨hopen, hstays⟩ := h
    obtain ⟨buffer, hfeed, hbuffer⟩ := feed_eq hopen hholds chunk
    rw [List.flatten_cons, ← List.append_assoc, FrameBuffer.takeAll_append, feedAll, hfeed]
    cases herror : (takeAll maxSize (bytes ++ chunk)).error with
    | some e =>
      rw [Taken.goOn_broken herror, herror]
      rw [herror] at hbuffer
      exact ⟨buffer, rfl, hbuffer.failure, by simp⟩
    | none =>
      rw [herror] at hfeed hbuffer
      rw [hfeed] at hstays
      rw [Taken.goOn_sound herror]
      -- what the first chunk leaves over is again no whole frame, so the rest is fed to a connection of the same kind
      obtain ⟨last, hlast, hfailure, hpending⟩ := ih (hstays rfl) hbuffer (FrameBuffer.front_rest herror)
      refine ⟨last, ?_, hfailure, hpending⟩
      rw [dealt_append]
      exact hlast

/-! ## Any two cuts -/

theorem dealt_fst (r : Router) (messages : List Message) (buffer : FrameBuffer) (fault : Option Error) :
    (dealt r messages buffer fault).1 = match fault with
      | none => .ok ()
      | some e => .error e := by
  cases fault <;> rfl

theorem dealt_agrees {r : Router} {messages : List Message} {buffer buffer' : FrameBuffer} {fault : Option Error}
    (hfailure : buffer.failure = buffer'.failure) (hpending : buffer.failure = none → buffer.pending = buffer'.pending) :
    (dealt r messages buffer fault).2.Agrees (dealt r messages buffer' fault).2 := by
  cases fault <;> exact ⟨rfl, hfailure, hpending⟩

theorem feedAll_cut {chunks' : List (List UInt8)} (hflatten : chunks.flatten = chunks'.flatten) (h : c.StaysOpen chunks)
    (h' : c.StaysOpen chunks') (hholds : c.buffer.Holds maxSize bytes none) (hfront : front maxSize bytes = .incomplete) :
    (c.feedAll chunks).1 = (c.feedAll chunks').1 ∧ (c.feedAll chunks).2.Agrees (c.feedAll chunks').2 := by
  obtain ⟨buffer, heq, hfailure, hpending⟩ := feedAll_eq h hholds hfront
  obtain ⟨buffer', heq', hfailure', hpending'⟩ := feedAll_eq h' hholds hfront
  rw [← hflatten] at heq' hfailure' hpending'
  rw [heq, heq', dealt_fst, dealt_fst]
  refine ⟨rfl, dealt_agrees (hfailure.trans hfailure'.symm) fun hnone => ?_⟩
  have herror : (takeAll maxSize (bytes ++ chunks.flatten)).error = none := by simpa [hfailure] using hnone
  rw [hpending herror, hpending' herror]

/-- a connection that dealing with the messages of a stream never closes stays open, however the stream is cut -/
theorem staysOpen_of_open (hholds : c.buffer.Holds maxSize bytes none)
    (h : ∀ before after, (takeAll maxSize (bytes ++ chunks.flatten)).messages = before ++ after →
      (before.foldl Router.dispatch c.router).closed = none) : c.StaysOpen chunks := by
  induction chunks generalizing c bytes with
  | nil => trivial
  | cons chunk chunks ih =>
    have hopen : c.isClosed = false := by simp [isClosed, show c.router.closed = none from h [] _ rfl]
    refine ⟨hopen, fun hok => ?_⟩
    obtain ⟨buffer, hfeed, hbuffer⟩ := feed_eq hopen hholds chunk
    rw [List.flatten_cons, ← List.append_assoc, FrameBuffer.takeAll_append] at h
    cases herror : (takeAll maxSize (bytes ++ chunk)).error with
    | some e =>
      rw [hfeed, herror] at hok
      cases hok
    | none =>
      rw [herror] at hfeed hbuffer
      rw [Taken.goOn_sound herror] at h
      rw [hfeed]
      refine ih hbuffer fun before after hmessages => ?_
      have hbefore := h ((takeAll maxSize (bytes ++ chunk)).messages ++ before) after (by simp [hmessages])
      rwa [List.foldl_append] at hbefore

/-! ## What an open connection waits for -/

section Waits

variable {config : Config} {transport : Transport}

theorem waits_new (config : Config) (transport : Transport) : (new config transport).Waits config.effectiveMaxSize :=
  fun _ => ⟨[], FrameBuffer.holds_new _, FrameBuffer.front_short (by decide)⟩

theorem Waits.feed (hwaits : c.Waits maxSize) (h : Reachable config transport c.router []) (chunk : List UInt8) :
    (c.feed chunk).2.Waits maxSize := by
  intro hopen
  cases hclosed : c.isClosed with
  | true =>
    rw [feed_refused hclosed] at hopen
    exact absurd (hclosed.symm.trans hopen) (by simp)
  | false =>
    obtain ⟨bytes, hholds, -⟩ := hwaits hclosed
    obtain ⟨buffer, hfeed, hbuffer⟩ := feed_eq hclosed hholds chunk
    cases herror : (takeAll maxSize (bytes ++ chunk)).error with
    | some e =>
      have hfault : (c.feed chunk).1 = .error e := by rw [hfeed, herror, dealt_fst]
      exact absurd ((h.feed_isClosed hfault).symm.trans hopen) (by simp)
    | none =>
      rw [herror] at hfeed hbuffer
      rw [hfeed]
      exact ⟨_, hbuffer, FrameBuffer.front_rest herror⟩

theorem Waits.feedAll (hwaits : c.Waits maxSize) (h : Reachable config transport c.router [])
    (chunks : List (List UInt8)) : (c.feedAll chunks).2.Waits maxSize := by
  induction chunks generalizing c with
  | nil => exact hwaits
  | cons chunk chunks ih =>
    have hfed := hwaits.feed h chunk
    have hreachable := h.later (Later.refl.feed chunk)
    rw [Connection.feedAll]
    rcases hresult : c.feed chunk with ⟨_ | _, fed⟩ <;> rw [hresult] at hfed hreachable
    · exact hfed
    · exact ih hfed hreachable

theorem Waits.act (hwaits : c.Waits maxSize) (h : Reachable config transport c.router []) (action : Action) :
    (c.act action).2.Waits maxSize := by
  have hown : Waits maxSize { c with router := (c.router.act action).2 } := by
    intro hopen
    refine hwaits (Bool.eq_false_iff.2 fun hclosed => ?_)
    have hturn := ((Later.refl : Later c.router [] c.router []).begin (.own action) rfl).turn
    rw [Job.turn] at hturn
    have hrests := h.rests hclosed hturn.settle
    rw [isClosed, Router.act, hrests.closed_eq] at hopen
    exact absurd (hclosed.symm.trans hopen) (by simp)
  cases action with
  | feed chunks => exact hwaits.feedAll h chunks
  | run arrivals => exact fun hopen => absurd ((h.run_isClosed arrivals).symm.trans hopen) (by simp)
  | _ => exact hown

theorem Waits.runAll (hwaits : c.Waits maxSize) (h : Reachable config transport c.router []) (actions : List Action) :
    (c.runAll actions).Waits maxSize := by
  induction actions generalizing c with
  | nil => exact hwaits
  | cons action actions ih => exact ih (hwaits.act h action) (h.act action)

end Waits

end Connection

/-! ## Reading a source -/

section Config

variable {r mid : Router} {owed owed' : List (UInt32 × Waiter × CallOutcome)} {first : Router} {jobs : List Job}

theorem Router.Change.config_eq (h : Router.Change r owed mid owed') : mid.config = r.config := by
  cases h with
  | rest | cancelling | replying | telling => rfl
  | closing owed reason => exact r.close_config reason
  | sending owed message waiter =>
    have hsends := r.send_sends message waiter
    generalize r.send message waiter = sent at hsends ⊢
    cases hsends with
    | refused | unframed | taken => rfl
    | failed => exact Router.close_config _ _

theorem Later.isSilent (h : Later first [] r jobs) : ∀ job ∈ jobs, job.IsSilent := by
  induction h with
  | refl => simp
  | begin job hjob _ _ => exact List.forall_mem_singleton.2 (Job.isModest_of_isBeginning hjob).isSilent
  | turn _ ih =>
    rw [List.forall_mem_cons] at ih
    exact List.forall_mem_append.2 ⟨(Job.turn_moves ih.1 _ []).2, ih.2⟩

/-- the settings stay -/
theorem Later.config_eq (h : Later first [] r jobs) : r.config = first.config := by
  induction h with
  | refl => rfl
  | begin job hjob _ ih => exact ih
  | @turn r job jobs hlater ih =>
    obtain ⟨⟨mid, hchange, hstill⟩, -⟩ := Job.turn_moves (List.forall_mem_cons.1 hlater.isSilent).1 r jobs
    exact hstill.config_eq.trans (hchange.config_eq.trans ih)

end Config

/-- the reads in which a source is taken, up to its end or its failure -/
def reads (size : Nat) : List Arrival → List (List UInt8)
  | [] | .bytes [] :: _ | .failed _ :: _ => []
  | .interrupted :: arrivals => reads size arrivals
  | .bytes (byte :: data) :: arrivals => chunks size (byte :: data) ++ reads size arrivals

/-- how reading a source ends, and the reason for which the connection is closed then -/
def ending : List Arrival → Except Error Unit × String
  | [] | .bytes [] :: _ => (.ok (), "end of stream")
  | .failed reason :: _ => (.error (.transport reason), reason)
  | .interrupted :: arrivals | .bytes (_ :: _) :: arrivals => ending arrivals

theorem flatten_reads (size size' : Nat) (arrivals : List Arrival) :
    (reads size arrivals).flatten = (reads size' arrivals).flatten := by
  fun_induction reads size arrivals with
  | case1 => rfl
  | case2 => rfl
  | case3 => rfl
  | case4 arrivals ih => exact ih
  | case5 byte data arrivals ih =>
    rw [reads, List.flatten_append, List.flatten_append, flatten_chunks, flatten_chunks, ih]

namespace Connection

variable {c d : Connection}

/-- a connection that has taken all of a source is closed, unless an error has stopped it before -/
def ended (arrivals : List Arrival) : Except Error Unit × Connection → Except Error Unit × Connection
  | (.ok _, c) => ((ending arrivals).1, c.close (ending arrivals).2)
  | failure => failure

theorem feedAll_append (c : Connection) (chunks more : List (List UInt8)) :
    c.feedAll (chunks ++ more) = match c.feedAll chunks with
      | (.ok _, c) => c.feedAll more
      | failure => failure := by
  induction chunks generalizing c with
  | nil => rfl
  | cons chunk chunks ih =>
    rw [List.cons_append, feedAll, feedAll]
    rcases c.feed chunk with ⟨_ | _, fed⟩
    · rfl
    · exact ih fed

/-- reading a source is feeding it in reads of the chunk size -/
theorem run_eq (c : Connection) (arrivals : List Arrival) :
    c.run arrivals = ended arrivals (c.feedAll (reads c.router.config.readChunkSize arrivals)) := by
  induction arrivals generalizing c with
  | nil => rfl
  | cons arrival arrivals ih =>
    match arrival with
    | .bytes [] => rfl
    | .interrupted => exact ih c
    | .failed reason => rfl
    | .bytes (byte :: data) =>
      have hfed := (Later.refl : Later c.router [] c.router []).feedAll (c := c)
        (chunks c.router.config.readChunkSize (byte :: data))
      rw [run, reads, feedAll_append]
      · rcases hresult : c.feedAll (chunks c.router.config.readChunkSize (byte :: data)) with ⟨e | _, fed⟩
        · rfl
        · rw [hresult] at hfed
          simp only
          -- the later reads are of the same size, since no callback changes the setting
          rw [ih fed, hfed.config_eq]
          rfl
      · simp

theorem staysOpen_reading (size : Nat) {chunks : List (List UInt8)} :
    (c.reading size).StaysOpen chunks ↔ c.StaysOpen chunks := by
  induction chunks generalizing c with
  | nil => exact Iff.rfl
  | cons chunk chunks ih =>
    rw [StaysOpen, StaysOpen, feed_reading]
    exact and_congr Iff.rfl (imp_congr Iff.rfl ih)

theorem Agrees.close (h : c.Agrees d) (reason : String) : (c.close reason).Agrees (d.close reason) := by
  refine ⟨?_, h.failure, h.pending⟩
  rw [Connection.close, Connection.close, h.router]

theorem Agrees.reading (h : c.Agrees d) (size : Nat) : (c.reading size).Agrees (d.reading size) :=
  ⟨congrArg (Router.reading size) h.router, h.failure, h.pending⟩

theorem run_cut {maxSize size size' : Nat} {bytes : List UInt8} {arrivals : List Arrival}
    (h : (c.reading size).StaysOpen (reads size arrivals)) (h' : (c.reading size').StaysOpen (reads size' arrivals))
    (hholds : c.buffer.Holds maxSize bytes none) (hfront : front maxSize bytes = .incomplete) :
    ((c.reading size).run arrivals).1 = ((c.reading size').run arrivals).1 ∧
      ((c.reading size).run arrivals).2.Agrees (((c.reading size').run arrivals).2.reading size) := by
  rw [staysOpen_reading] at h h'
  obtain ⟨hresult, hagrees⟩ := feedAll_cut (flatten_reads size size' arrivals) h h' hholds hfront
  have hrun (n : Nat) : (c.reading n).run arrivals
      = ended arrivals ((c.feedAll (reads n arrivals)).1, (c.feedAll (reads n arrivals)).2.reading n) := by
    rw [run_eq, feedAll_reading]
    rfl
  rw [hrun, hrun]
  generalize c.feedAll (reads size arrivals) = fed, c.feedAll (reads size' arrivals) = fed' at hresult hagrees ⊢
  obtain ⟨result, d⟩ := fed
  obtain ⟨_, d'⟩ := fed'
  cases hresult
  cases result with
  | error e => exact ⟨rfl, hagrees.reading size⟩
  | ok _ =>
    refine ⟨rfl, ?_⟩
    simp only [ended, close_reading]
    exact (hagrees.close _).reading size

/-! ## A stream that is not cut -/

/-- an open connection deals with a stream as if it came in one piece, as long as it stays open -/
structure FeedsWhole (c : Connection) : Prop where
  /-- any two ways to cut a stream have the same result, and lead to the same state -/
  cut : ∀ chunks chunks', chunks.flatten = chunks'.flatten → c.StaysOpen chunks → c.StaysOpen chunks' →
    (c.feedAll chunks).1 = (c.feedAll chunks').1 ∧ (c.feedAll chunks).2.Agrees (c.feedAll chunks').2
  /-- the messages that a single reader delivers are dispatched in order, and then comes its error -/
  whole : ∀ chunks, c.StaysOpen chunks → ∃ buffer, c.feedAll chunks = dealt c.router
    (delivered (c.buffer.single chunks.flatten)) buffer (firstError? (c.buffer.single chunks.flatten))
  /-- they are dealt with one after another, by what has happened before each of them: every tap of that time sees it,
  and then it is routed once, by its type; with the error nothing more is done about messages -/
  routed : ∀ chunks, c.StaysOpen chunks → ∃ past more,
    DealtAll c.router.past (delivered (c.buffer.single chunks.flatten)) past ∧
      (c.feedAll chunks).2.router.past = past ++ more ∧ more.filter Moment.isDealing = []
  /-- the connection stays open, however the stream is cut, if it is open once these messages are dispatched -/
  staysOpen : ∀ chunks, ((delivered (c.buffer.single chunks.flatten)).foldl Router.dispatch c.router).closed = none →
    c.StaysOpen chunks
  /-- reading a source does not depend on the size of the reads, but for the setting itself -/
  run : ∀ arrivals size size', (c.reading size).StaysOpen (reads size arrivals) →
    (c.reading size').StaysOpen (reads size' arrivals) →
    ((c.reading size).run arrivals).1 = ((c.reading size').run arrivals).1 ∧
      ((c.reading size).run arrivals).2.Agrees (((c.reading size').run arrivals).2.reading size)

theorem dealt_dealings (r : Router) (messages : List Message) (buffer : FrameBuffer) (fault : Option Error) :
    (dealt r messages buffer fault).2.router.dealings = r.dealings ++ r.dealingsOfAll messages := by
  cases fault with
  | none => exact r.dispatchAll_dealings messages
  | some e => exact (close_dealings _ _).trans (r.dispatchAll_dealings messages)

section Whole

variable {config : Config} {transport : Transport} {r : Router}

/-- **Messages are dealt with by what has happened before each of them**, and nothing is done about messages when an error
behind them closes the connection -/
theorem dealt_past (h : Reachable config transport r []) (messages : List Message) (buffer : FrameBuffer)
    (fault : Option Error) : ∃ past more, DealtAll r.past messages past ∧
      (dealt r messages buffer fault).2.router.past = past ++ more ∧ more.filter Moment.isDealing = [] := by
  cases fault with
  | none => exact ⟨_, [], h.dealtAll messages, (List.append_nil _).symm, rfl⟩
  | some e =>
    let c : Connection := ⟨messages.foldl Router.dispatch r, buffer⟩
    obtain ⟨more, hmore⟩ := (h.dispatchAll messages).past_grows (Later.refl.close (c := c) e.message)
    have hdealings := (Router.dealings_append hmore.symm).symm.trans (c.close_dealings e.message)
    exact ⟨_, more, h.dealtAll messages, hmore.symm, List.append_right_eq_self.1 hdealings⟩

theorem Waits.feedsWhole {maxSize : Nat} (hwaits : c.Waits maxSize) (h : Reachable config transport c.router [])
    (hopen : c.isClosed = false) : c.FeedsWhole := by
  obtain ⟨bytes, hholds, hfront⟩ := hwaits hopen
  have hwhole (chunks : List (List UInt8)) (h : c.StaysOpen chunks) : ∃ buffer, c.feedAll chunks = dealt c.router
      (delivered (c.buffer.single chunks.flatten)) buffer (firstError? (c.buffer.single chunks.flatten)) := by
    obtain ⟨hmessages, herror⟩ := FrameBuffer.single_seen hholds chunks.flatten
    obtain ⟨buffer, hfed, -⟩ := feedAll_eq h hholds hfront
    exact ⟨buffer, by rw [hmessages, herror, hfed]⟩
  refine {
    cut := fun chunks chunks' hflatten h h' => feedAll_cut hflatten h h' hholds hfront
    whole := hwhole
    routed := fun chunks hstays => ?_
    staysOpen := fun chunks hdealt => ?_
    run := fun arrivals size size' h h' => run_cut h h' hholds hfront }
  · obtain ⟨buffer, hfed⟩ := hwhole chunks hstays
    rw [hfed]
    exact dealt_past h _ buffer _
  · rw [(FrameBuffer.single_seen hholds chunks.flatten).1] at hdealt
    refine staysOpen_of_open hholds fun before after hmessages => ?_
    rw [hmessages, List.foldl_append] at hdealt
    exact (h.dispatchAll before).open_of_later (Later.refl.dispatchAll after) hdealt

end Whole

/-- **Where a stream is cut does not matter while the connection stays open**, whatever its owner has done before; a
closed connection refuses the first chunk. -/
theorem feeding_uncut (config : Config) (transport : Transport) (actions : List Action) :
    (((new config transport).runAll actions).isClosed = false → ((new config transport).runAll actions).FeedsWhole) ∧
      (((new config transport).runAll actions).isClosed = true → ∀ chunk chunks,
        ((new config transport).runAll actions).feedAll (chunk :: chunks)
          = (.error .closed, (new config transport).runAll actions)) := by
  refine ⟨((waits_new config transport).runAll .new actions).feedsWhole (Reachable.runAll config transport actions),
    fun hclosed chunk chunks => ?_⟩
  rw [feedAll, feed_refused hclosed]

/-- a tap that adds another one whenever it sees a message, a listener, a handler, and a call that is open -/
def preparations : List Action :=
  [.tap "watch" [.tap "also" []], .listen "/" "o.c" "R" "hears" [], .serve "/" none "M" "serves" [] .echo,
    .invoke pinging "pinged" []]

def attentive : Connection := (new {} .reliable).runAll preparations

def rung : Message := { rang with serial := 5 }

/-- a signal, a call and a reply, and what is no frame -/
def mixedStream : List UInt8 := rung.frame ++ ((named "o.a").frame ++ ((ponging 1).frame ++ 63 :: List.replicate 15 0))

/-- the same, cut within each of the frames -/
def mixedPieces : List (List UInt8) := [mixedStream.take 30, (mixedStream.take 100).drop 30, mixedStream.drop 100]

theorem takeAll_mixedStream : takeAll maxMessageSize mixedStream
    = ⟨[rung, named "o.a", ponging 1], some (.invalidByteOrder 63), 63 :: List.replicate 15 0⟩ := by
  have hsignal : front maxMessageSize mixedStream = .frame 64 (.ok rung) := by cbv
  have hcall : front maxMessageSize (mixedStream.drop 64) = .frame 64 (.ok (named "o.a")) := by cbv
  have hreply : front maxMessageSize ((mixedStream.drop 64).drop 64) = .frame 41 (.ok (ponging 1)) := by cbv
  have hbroken : front maxMessageSize (((mixedStream.drop 64).drop 64).drop 41) = .unframed (.invalidByteOrder 63) := by cbv
  have hrest : ((mixedStream.drop 64).drop 64).drop 41 = 63 :: List.replicate 15 0 := by cbv
  rw [FrameBuffer.takeAll_message hsignal, FrameBuffer.takeAll_message hcall, FrameBuffer.takeAll_message hreply,
    FrameBuffer.takeAll_unframed hbroken, hrest]
  rfl

/-- the stream in one piece, or cut within each of its frames, or read in pieces of seven or of sixty bytes: the taps of the
time see each message, and then it is heard, served or told -/
theorem feeding_uncut_attentive :
    attentive.isClosed = false ∧ attentive.StaysOpen [mixedStream] ∧ attentive.StaysOpen mixedPieces ∧
      (attentive.feedAll [mixedStream]).1 = .error (.invalidByteOrder 63) ∧
      (attentive.feedAll mixedPieces).1 = .error (.invalidByteOrder 63) ∧
      (attentive.feedAll [mixedStream]).2.Agrees (attentive.feedAll mixedPieces).2 ∧
      (∃ past more, DealtAll attentive.router.past [rung, named "o.a", ponging 1] past ∧
        (attentive.feedAll mixedPieces).2.router.past = past ++ more ∧ more.filter Moment.isDealing = []) ∧
      (attentive.feedAll mixedPieces).2.router.dealings
        = [.seen (.arrived rung), .seen (.tapped "watch" rung), .routed rung, .seen (.signalled "hears" rung),
          .seen (.arrived (named "o.a")), .seen (.tapped "watch" (named "o.a")), .seen (.tapped "also" (named "o.a")),
          .routed (named "o.a"), .seen (.served "serves" (named "o.a")),
          .seen (.arrived (ponging 1)), .seen (.tapped "watch" (ponging 1)), .seen (.tapped "also" (ponging 1)),
          .seen (.tapped "also" (ponging 1)), .routed (ponging 1), .told 1 (.callback ⟨"pinged", []⟩) (.ok (.ofString "pong")),
          .seen (.replied "pinged" (.ok (.ofString "pong")))] ∧
      ((attentive.reading 7).run [.bytes mixedStream]).1 = ((attentive.reading 60).run [.bytes mixedStream]).1 ∧
      ((attentive.reading 7).run [.bytes mixedStream]).2.Agrees
        (((attentive.reading 60).run [.bytes mixedStream]).2.reading 7) := by
  have hopen : attentive.isClosed = false := by cbv
  have hfeeds : attentive.FeedsWhole := (feeding_uncut {} .reliable preparations).1 hopen
  have hseen :=
    FrameBuffer.single_seen (show attentive.buffer.Holds maxMessageSize [] none from FrameBuffer.holds_new _) mixedStream
  rw [List.nil_append, takeAll_mixedStream] at hseen
  have hclosed : ([rung, named "o.a", ponging 1].foldl Router.dispatch attentive.router).closed = none := by cbv
  have hstays (chunks : List (List UInt8)) (hflatten : chunks.flatten = mixedStream) : attentive.StaysOpen chunks :=
    hfeeds.staysOpen chunks (by rw [hflatten, hseen.1]; exact hclosed)
  have hpieces : mixedPieces.flatten = mixedStream := by cbv
  have hone := hstays [mixedStream] List.flatten_singleton
  have hthree := hstays mixedPieces hpieces
  obtain ⟨hresult, hagrees⟩ := hfeeds.cut [mixedStream] mixedPieces (by rw [hpieces, List.flatten_singleton]) hone hthree
  obtain ⟨buffer, hfed⟩ := hfeeds.whole mixedPieces hthree
  rw [hpieces, hseen.1, hseen.2] at hfed
  have hfault : (attentive.feedAll mixedPieces).1 = .error (.invalidByteOrder 63) := by rw [hfed, dealt_fst]
  have hrouted := hfeeds.routed mixedPieces hthree
  rw [hpieces, hseen.1] at hrouted
  have hdealings : (attentive.feedAll mixedPieces).2.router.dealings
      = ([rung, named "o.a", ponging 1].foldl Router.dispatch attentive.router).dealings := by
    rw [hfed]
    exact close_dealings _ _
  have hread (size : Nat) : (attentive.reading size).StaysOpen (reads size [.bytes mixedStream]) := by
    rw [staysOpen_reading]
    exact hstays _ ((flatten_reads size 200 [.bytes mixedStream]).trans (by cbv))
  obtain ⟨hran, hsame⟩ := hfeeds.run [.bytes mixedStream] 7 60 (hread 7) (hread 60)
  refine ⟨hopen, hone, hthree, hresult.trans hfault, hfault, hagrees, hrouted, hdealings.trans ?_, hran, hsame⟩
  cbv

end Connection

end MessageBus
