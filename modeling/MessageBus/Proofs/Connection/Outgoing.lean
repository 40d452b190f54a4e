/-
The outgoing stream stays framed and ordered.

Whatever a connection sends, for its owner, from a callback or as the answer to a call, it hands to the transport in
frames, one after the other. `Link.sendAll` is what a transport makes of frames, and `Outbox` says that this is the state
of the link. A frame that is not taken as a whole closes the connection, so that the bytes which the transport has taken
are always the beginning of the frames (`Streams`). `Connection.stream_framed` says so of every connection on which the
serials have not run out.
-/
import Mathlib
import MessageBus.Proofs.Connection.Closed
import MessageBus.Proofs.Message.RoundTrip

namespace MessageBus

/-! ## What a transport makes of frames -/

namespace Link

/-- bytes are taken from the front of what is on offer, and all of them unless something fails -/
theorem writeAll_sent (link : Link) (data : List UInt8) :
    (link.writeAll data).2.sent <+: link.sent ++ data ∧
      ((link.writeAll data).1 = .ok () → (link.writeAll data).2.sent = link.sent ++ data) := by
  induction link, data using Link.writeAll.induct with
  | case1 link data hempty =>
    rw [writeAll, if_pos hempty, List.isEmpty_iff.1 hempty]
    simp
  | case2 link data hdata reason hwrite =>
    rw [writeAll, if_neg hdata]
    simp [hwrite]
  | case3 link data hdata hwrite =>
    rw [writeAll, if_neg hdata]
    simp [hwrite]
  | case4 link data hdata n hwrite taken ih =>
    have hrest : taken.sent ++ data.drop (n + 1) = link.sent ++ data := by
      simp [taken, List.append_assoc]
    rw [hrest] at ih
    rw [writeAll, if_neg hdata]
    simp only [hwrite]
    exact ih

theorem send_sent (link : Link) (data : List UInt8) :
    (link.send data).2.sent <+: link.sent ++ data ∧
      ((link.send data).1 = .ok () → (link.send data).2.sent = link.sent ++ data) := by
  obtain ⟨hfront, hall⟩ := link.writeAll_sent data
  unfold send
  split
  · next h =>
    rw [h] at hfront hall
    exact ⟨hfront, fun _ => hall rfl⟩
  · exact ⟨hfront, hall⟩

/-- offer frames one after the other: what comes of each, and the link after them -/
def sendAll (link : Link) (frames : List (List UInt8)) : List (Except String Unit) × Link :=
  frames.foldl (fun sent data => (sent.1 ++ [(sent.2.send data).1], (sent.2.send data).2)) ([], link)

@[simp] theorem sendAll_nil (link : Link) : link.sendAll [] = ([], link) := rfl

theorem sendAll_snoc (link : Link) (frames : List (List UInt8)) (data : List UInt8) :
    link.sendAll (frames ++ [data]) = ((link.sendAll frames).1 ++ [((link.sendAll frames).2.send data).1],
      ((link.sendAll frames).2.send data).2) := by
  simp [sendAll]

/-- frames of which each is taken as a whole are taken as a whole -/
theorem sendAll_sent {link : Link} {frames : List (List UInt8)}
    (h : ∀ result ∈ (link.sendAll frames).1, result = .ok ()) :
    (link.sendAll frames).2.sent = link.sent ++ frames.flatten := by
  induction frames using List.reverseRecOn with
  | nil => simp
  | append_singleton frames data ih =>
    rw [sendAll_snoc, List.forall_mem_append, List.forall_mem_singleton] at h
    rw [sendAll_snoc, (send_sent _ data).2 h.2, ih h.1]
    simp

/-- as long as nothing but the last frame fails, what is taken is the beginning of the frames -/
theorem sendAll_prefix {link : Link} {frames : List (List UInt8)}
    (h : ∀ result ∈ (link.sendAll frames).1.dropLast, result = .ok ()) :
    (link.sendAll frames).2.sent <+: link.sent ++ frames.flatten := by
  rcases List.eq_nil_or_concat frames with rfl | ⟨frames, data, rfl⟩
  · simp
  · rw [List.concat_eq_append, sendAll_snoc, List.dropLast_concat] at h
    have hfront := (send_sent (link.sendAll frames).2 data).1
    rw [sendAll_sent h] at hfront
    rw [List.concat_eq_append, sendAll_snoc]
    simpa using hfront

end Link

/-! ## What a connection sends -/

/-- what a transport makes of the frames of the messages that were handed to it: what came of each, and the link -/
def Router.replay (r : Router) (transport : Transport) : List (Except String Unit) × Link :=
  Link.sendAll { transport } (r.written.map Message.frame)

/-- the link of a connection is what the transport makes of the frames of the messages that were handed to it. Their
serials count up, and a transport that fails closes the connection -/
structure Outbox (config : Config) (transport : Transport) (r : Router) : Prop where
  config_eq : r.config = config
  framed : ∀ m ∈ r.written, m.marshal = .ok m.frame
  order_eq : ∀ m ∈ r.written, m.order = config.order
  serial_pos : ∀ m ∈ r.written, 0 < m.serial
  serial_le : ∀ m ∈ r.written, m.serial.toNat ≤ issued r.past
  ascending : r.written.Pairwise fun m n => m.serial < n.serial
  link_eq : r.link = (r.replay transport).2
  sound : ∀ result ∈ (r.replay transport).1.dropLast, result = .ok ()
  closed : (∃ result ∈ (r.replay transport).1, result ≠ .ok ()) → r.closed.isSome = true

section Outbox

variable {config : Config} {transport : Transport} {r r' : Router} {jobs : List Job}

/-- nothing is sent, and the connection is not opened again -/
theorem Outbox.keep (h : Outbox config transport r) (hconfig : r'.config = r.config) (hlink : r'.link = r.link)
    (hwritten : r'.written = r.written) (hissued : issued r.past ≤ issued r'.past)
    (hclosed : r.closed.isSome = true → r'.closed.isSome = true) : Outbox config transport r' where
  config_eq := hconfig.trans h.config_eq
  framed := by rw [hwritten]; exact h.framed
  order_eq := by rw [hwritten]; exact h.order_eq
  serial_pos := by rw [hwritten]; exact h.serial_pos
  serial_le := by rw [hwritten]; exact fun m hm => (h.serial_le m hm).trans hissued
  ascending := by rw [hwritten]; exact h.ascending
  link_eq := by rw [hlink, Router.replay, hwritten]; exact h.link_eq
  sound := by rw [Router.replay, hwritten]; exact h.sound
  closed := by rw [Router.replay, hwritten]; exact fun hfailed => hclosed (h.closed hfailed)

/-- a message with the next serial is handed to the transport of an open connection, and a failure closes it -/
theorem Outbox.send (h : Outbox config transport r) {message : Message} {data : List UInt8} (hopen : r.closed = none)
    (hdata : (r.numbered message).marshal = .ok data) (hserial : r.allocateSerial.1.toNat = issued r.past + 1)
    (hconfig : r'.config = r.config) (hlink : r'.link = (r.link.send data).2)
    (hwritten : r'.written = r.written ++ [r.numbered message]) (hissued : issued r'.past = issued r.past + 1)
    (hclosed : (r.link.send data).1 ≠ .ok () → r'.closed.isSome = true) : Outbox config transport r' := by
  have hframe : (r.numbered message).frame = data := (Message.frame_of_marshal hdata).symm
  have hsent : r'.replay transport = ((r.replay transport).1 ++ [(r.link.send data).1], (r.link.send data).2) := by
    rw [h.link_eq, Router.replay, hwritten, List.map_append, List.map_singleton, hframe, Link.sendAll_snoc]
    rfl
  have hok : ∀ result ∈ (r.replay transport).1, result = .ok () := by
    by_contra hfailed
    have hsome := h.closed (by simpa using hfailed)
    simp [hopen] at hsome
  have hlast : (r.numbered message).serial.toNat = issued r.past + 1 := hserial
  refine {
    config_eq := hconfig.trans h.config_eq
    framed := ?_
    order_eq := ?_
    serial_pos := ?_
    serial_le := ?_
    ascending := ?_
    link_eq := by rw [hsent, hlink]
    sound := by rwa [hsent, List.dropLast_concat]
    closed := ?_ }
  · rw [hwritten, List.forall_mem_append, List.forall_mem_singleton, hframe]
    exact ⟨h.framed, hdata⟩
  · rw [hwritten, List.forall_mem_append, List.forall_mem_singleton]
    exact ⟨h.order_eq, congrArg Config.order h.config_eq⟩
  · rw [hwritten, List.forall_mem_append, List.forall_mem_singleton, UInt32.lt_iff_toNat_lt, hlast]
    exact ⟨h.serial_pos, Nat.succ_pos _⟩
  · rw [hwritten, List.forall_mem_append, List.forall_mem_singleton, hlast, hissued]
    exact ⟨fun m hm => Nat.le_succ_of_le (h.serial_le m hm), le_rfl⟩
  · rw [hwritten, List.pairwise_append]
    refine ⟨h.ascending, List.pairwise_singleton _ _, fun m hm n hn => ?_⟩
    rw [List.mem_singleton.1 hn, UInt32.lt_iff_toNat_lt, hlast]
    exact Nat.lt_succ_of_le (h.serial_le m hm)
  · rw [hsent]
    rintro ⟨result, hresult, hfailed⟩
    obtain hbefore | hnow := List.mem_append.1 hresult
    · exact absurd (hok result hbefore) hfailed
    · exact hclosed (List.mem_singleton.1 hnow ▸ hfailed)

theorem Outbox.new (config : Config) (transport : Transport) :
    Outbox config transport { config, link := { transport } } := by
  have hwritten : Router.written { config, link := { transport } } = [] := rfl
  constructor <;> simp [hwritten, Router.replay]

/-- serials are allocated one after the other, unless they run out -/
theorem Reachable.allocateSerial_toNat (h : Reachable config transport r jobs) (hfew : issued r.past < 2 ^ 32 - 1) :
    r.allocateSerial.1.toNat = issued r.past + 1 := by
  have hbooks := h.books hfew
  obtain ⟨serial, hserial, hallocated⟩ := r.allocateSerial_eq (owedBy jobs)
  have hnext : serial = r.nextSerial := hbooks.eq_next hserial
  rw [hallocated, hnext]
  exact hbooks.numbering.next_eq

theorem Moment.isNumber_of_isSilent {m : Moment} (h : m.isSilent = true) : m.isNumber = false := by
  cases m <;> first | rfl | cases h

theorem Router.Still.issued_eq (h : r.Still r') : issued r'.past = issued r.past := by
  obtain ⟨more, hpast, hmore⟩ := h.past_eq
  have hnone : issued more = 0 := by
    rw [issued, List.countP_eq_zero]
    intro m hm
    rw [Moment.isNumber_of_isSilent (hmore m hm)]
    exact Bool.false_ne_true
  rw [hpast, issued_append, hnone, Nat.add_zero]

theorem Router.close_issued (r : Router) (reason : String) : issued (r.close reason).1.past = issued r.past := by
  rw [close_eq, issued_append]
  cases r.closed <;> simp [issued, Moment.isNumber]

theorem Router.offered_issued (r : Router) (message : Message) (waiter : Option Waiter) (data : List UInt8) :
    issued (r.offered message waiter data).past = issued r.past + 1 := by
  rw [offered, List.append_assoc, issued_append]
  cases waiter <;> rfl

/-- every change keeps the outgoing stream as it should be -/
theorem Outbox.change {mid : Router} {owed : List (UInt32 × Waiter × CallOutcome)}
    (hr : issued r.past < 2 ^ 32 - 1 → Outbox config transport r) (hreachable : Reachable config transport r jobs)
    (hchange : Router.Change r (owedBy jobs) mid owed) (hfew : issued mid.past < 2 ^ 32 - 1) :
    Outbox config transport mid := by
  generalize owedBy jobs = before at hchange
  cases hchange with
  | rest => exact hr hfew
  | cancelling owed s | replying owed s w o hs => exact (hr hfew).keep rfl rfl rfl le_rfl id
  | sending owed message waiter =>
    have hsends := r.send_sends message waiter
    generalize r.send message waiter = sent at hsends hfew ⊢
    cases hsends with
    | refused => exact hr hfew
    | unframed =>
      have hissued : issued r.allocateSerial.2.past = issued r.past + 1 := issued_append r.past _
      have hwritten : r.allocateSerial.2.written = r.written := by
        rw [Router.written_append (r := r) rfl]
        exact List.append_nil _
      dsimp only at hfew ⊢
      exact (hr (by omega)).keep rfl rfl hwritten (by omega) id
    | @taken data hopen hdata hlink =>
      have hissued := r.offered_issued message waiter data
      dsimp only at hfew ⊢
      have hbefore : issued r.past < 2 ^ 32 - 1 := by omega
      exact (hr hbefore).send hopen hdata (hreachable.allocateSerial_toNat hbefore) rfl rfl
        (r.offered_written message waiter data) hissued fun hfailed => absurd hlink hfailed
    | @failed data why hopen hdata hlink =>
      have hissued := r.offered_issued message waiter data
      rw [Router.close_issued] at hfew
      have hbefore : issued r.past < 2 ^ 32 - 1 := by omega
      refine (hr hbefore).send hopen hdata (hreachable.allocateSerial_toNat hbefore) (Router.close_config _ _)
        (Router.close_link _ _) ?_ ?_ fun _ => ?_
      · rw [Router.close_written, Router.offered_written]
      · rw [Router.close_issued, hissued]
      · rw [Router.close_closed]
        rfl
  | closing owed reason =>
    have hissued := r.close_issued reason
    refine (hr (by omega)).keep (r.close_config reason) (r.close_link reason) (r.close_written reason) hissued.ge ?_
    rw [r.close_closed]
    exact fun _ => rfl
  | telling _ s w o handles =>
    have hissued : issued (r.past ++ .told s w o :: w.heard o) = issued r.past := by
      rw [issued_append]
      cases w <;> rfl
    exact (hr (hissued ▸ hfew)).keep rfl rfl (r.telling_written s w o handles) hissued.ge id

theorem Reachable.outbox (h : Reachable config transport r jobs) (hfew : issued r.past < 2 ^ 32 - 1) :
    Outbox config transport r := by
  refine h.holds (P := fun r _ => issued r.past < 2 ^ 32 - 1 → Outbox config transport r)
    (fun _ => .new config transport) (fun _ _ _ _ hreachable hchange hr => Outbox.change hr hreachable hchange)
    (fun r r' _ hstill hr hfew => ?_) hfew
  have hissued := hstill.issued_eq
  exact (hr (hissued ▸ hfew)).keep hstill.config_eq hstill.link_eq hstill.written_eq hissued.ge (by rw [hstill.closed_eq]; exact id)

end Outbox

/-! ## The outgoing stream -/

/-- what holds of the outgoing stream of a connection, with jobs that are still to be done -/
structure Streams (config : Config) (transport : Transport) (r : Router) (jobs : List Job) : Prop where
  /-- a message that is sent on an open connection is handed to the transport once it is known to have a frame -/
  send_written : r.closed = none → ∀ message waiter data, (r.numbered message).marshal = .ok data →
    (r.send message waiter).2.1.written = r.written ++ [r.numbered message] ∧
      (r.send message waiter).2.1.link = (r.link.send data).2
  /-- such messages have frames -/
  framed : ∀ m ∈ r.written, m.marshal = .ok m.frame
  /-- and nothing but these frames is handed to the transport, in this order -/
  link_eq : r.link = (r.replay transport).2
  /-- what the transport has taken is the beginning of them -/
  sent_prefix : r.link.sent <+: r.written.flatMap Message.frame
  order_eq : ∀ m ∈ r.written, m.order = config.order
  serial_ne_zero : ∀ m ∈ r.written, m.serial ≠ 0
  ascending : r.written.Pairwise fun m n => m.serial < n.serial
  /-- sending closes the connection if the transport fails -/
  send_closes : ∀ message waiter data, (r.numbered message).marshal = .ok data → (r.link.send data).1 ≠ .ok () →
    (r.send message waiter).2.1.closed.isSome = true
  /-- so that it is closed from then on -/
  closed_of_failed : (∃ result ∈ (r.replay transport).1, result ≠ .ok ()) → r.closed.isSome = true
  /-- and whenever the transport has not taken all of the frames -/
  closed_of_torn : r.link.sent ≠ r.written.flatMap Message.frame → r.closed.isSome = true
  /-- nothing is handed to the transport of a closed connection any more -/
  final : r.closed.isSome = true → ∀ r' jobs', Later r jobs r' jobs' → r'.link = r.link ∧ r'.written = r.written

/-- **The outgoing stream stays framed and ordered.** Whatever the owner of a new connection does leads to a reachable
state. In each of these, between operations or in the middle of one, the outgoing stream is as it should be, however the
transport behaves, as long as fewer serials were allocated than there are. -/
theorem Connection.stream_framed (config : Config) (transport : Transport) :
    (∀ actions, Reachable config transport ((Connection.new config transport).runAll actions).router []) ∧
      ∀ r jobs, Reachable config transport r jobs → issued r.past < 2 ^ 32 - 1 → Streams config transport r jobs := by
  refine ⟨Reachable.runAll config transport, fun r jobs h hfew => ?_⟩
  have houtbox := h.outbox hfew
  refine {
    send_written := fun hopen message waiter data hdata => ?_
    framed := houtbox.framed
    link_eq := houtbox.link_eq
    sent_prefix := ?_
    order_eq := houtbox.order_eq
    serial_ne_zero := fun m hm hzero => absurd (houtbox.serial_pos m hm) (by rw [hzero]; decide)
    ascending := houtbox.ascending
    send_closes := fun message waiter data hdata hfailed => ?_
    closed_of_failed := houtbox.closed
    closed_of_torn := fun htorn => houtbox.closed ?_
    final := fun hclosed r' jobs' hlater =>
      ⟨(h.rests hclosed hlater).link_eq, (h.rests hclosed hlater).written_eq⟩ }
  · rw [Router.send_framed hopen hdata]
    split
    · exact ⟨r.offered_written message waiter data, rfl⟩
    · exact ⟨by rw [Router.close_written, Router.offered_written], Router.close_link _ _⟩
  · have hfront := Link.sendAll_prefix houtbox.sound
    rw [houtbox.link_eq, List.flatMap_def]
    exact hfront
  · cases hopen : r.closed with
    | some reason =>
      rw [Router.send_refused (by rw [hopen]; rfl), hopen]
      rfl
    | none =>
      rw [Router.send_framed hopen hdata]
      split
      · next hok => exact absurd hok hfailed
      · rw [Router.close_closed]
        rfl
  · by_contra hsound
    push Not at hsound
    refine htorn ?_
    rw [houtbox.link_eq, List.flatMap_def]
    exact Link.sendAll_sent hsound

def rang : Message := { type := .signal, fields := { path := some "/", interface := some "o.c", member := some "R" } }

def asksTime : Message := { type := .methodCall, serial := 9, fields := { path := some "/", member := some "T" } }

/-- takes no more than 100 bytes -/
def narrow : Transport := .limited (some (100, "full")) none none

/-- a call whose handler sends a signal, before it is answered -/
def rung : Connection :=
  let c := (Connection.new { order := .big } narrow).runAll [.serve "/" none "T" "time" [.send rang] .echo]
  { c with router := [asksTime].foldl Router.dispatch c.router }

/-- the signal that the owner sends next is torn -/
def torn : Router := (rung.act (.send rang)).2.router

theorem torn_eq : torn = ((rung.router.offered rang none (rung.router.numbered rang).frame).close
    "transport error: full").1.record (.acted (.send rang) (.failed (.transport "full"))) := by
  have hdata : (rung.router.numbered rang).marshal = .ok (rung.router.numbered rang).frame := by cbv
  have hlink : (rung.router.link.send (rung.router.numbered rang).frame).1 = .error "full" := by cbv
  have hsend : rung.router.send rang none = (.error (.transport "full"),
      (rung.router.offered rang none (rung.router.numbered rang).frame).close "transport error: full") := by
    rw [Router.send_framed (by cbv) hdata, hlink]
    rfl
  have hnobody : (rung.router.offered rang none (rung.router.numbered rang).frame).pending = [] := by cbv
  simp only [torn, Connection.act, Router.act, Router.perform, Router.effect, hsend, Router.answer]
  rw [Router.close_tasks, hnobody, List.map_nil, Router.settle]

theorem Connection.stream_framed_torn :
    Reachable { order := .big } narrow torn [] ∧ issued torn.past < 2 ^ 32 - 1 ∧
      Streams { order := .big } narrow torn [] ∧
      torn.written.map (fun m => (m.type, m.serial, m.frame.length)) =
        [(.signal, 1, 64), (.methodReturn, 2, 24), (.signal, 3, 64)] ∧
      torn.link.sent.length = 100 ∧ torn.closed = some "transport error: full" := by
  have hreachable : Reachable { order := .big } narrow torn [] := by
    have hserved := (Connection.stream_framed { order := .big } narrow).1
      [.serve "/" none "T" "time" [.send rang] .echo]
    exact Reachable.act (c := rung) (.send rang) (hserved.dispatchAll [asksTime])
  have hissued : issued torn.past = 3 := by
    rw [torn_eq]
    cbv
  have hfew : issued torn.past < 2 ^ 32 - 1 := by omega
  refine ⟨hreachable, hfew, (Connection.stream_framed _ narrow).2 torn [] hreachable hfew, ?_, ?_, ?_⟩
  · rw [torn_eq]
    cbv
  · rw [torn_eq]
    cbv
  · rw [torn_eq]
    cbv

end MessageBus
