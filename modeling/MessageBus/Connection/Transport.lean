/-
The outgoing side of a connection.

A transport takes as many of the bytes that it is offered as it likes, or fails; it may do so differently every time.
`Link.writeAll` offers bytes until all are taken, and gives up when none are. What was taken stays taken.
-/

namespace MessageBus

/-- how a transport behaves, given how often it was used before and how many bytes it has taken so far -/
structure Transport where
  /-- how many of the bytes on offer it takes, or why it fails -/
  write : (uses taken offered : Nat) → Except String Nat
  flush : (uses taken : Nat) → Except String Unit

namespace Transport

/-- takes everything -/
def reliable : Transport := ⟨fun _ _ offered => .ok offered, fun _ _ => .ok ()⟩

/-- takes at most `burst` bytes at once, and fails with a reason once it has taken as many bytes as its capacity; its
flushes fail if there is a reason for that -/
def limited (capacity : Option (Nat × String)) (burst : Option Nat) (flushFault : Option String) : Transport where
  write _ taken offered :=
    let capped (n : Nat) : Nat := match burst with
      | some most => min n most
      | none => n
    match capacity with
    | some (limit, reason) => if limit ≤ taken then .error reason else .ok (capped (min offered (limit - taken)))
    | none => .ok (capped offered)
  flush _ _ := match flushFault with
    | some reason => .error reason
    | none => .ok ()

end Transport

/-- a transport in use -/
structure Link where
  transport : Transport
  uses : Nat := 0
  /-- all bytes taken so far -/
  sent : List UInt8 := []

namespace Link

/-- offer bytes until the transport has taken all of them -/
def writeAll (link : Link) (data : List UInt8) : Except String Unit × Link :=
  if data.isEmpty then (.ok (), link)
  else
    match link.transport.write link.uses link.sent.length data.length with
    | .error reason => (.error reason, { link with uses := link.uses + 1 })
    | .ok 0 => (.error "failed to write whole buffer", { link with uses := link.uses + 1 })
    | .ok (n + 1) =>
      let link := { link with uses := link.uses + 1, sent := link.sent ++ data.take (n + 1) }
      link.writeAll (data.drop (n + 1))
termination_by data.length
decreasing_by
  rename_i h
  rw [List.isEmpty_iff] at h
  have := List.length_pos_iff.mpr h
  simp only [List.length_drop]
  omega

/-- ask the transport to pass on what it has taken -/
def flush (link : Link) : Except String Unit × Link :=
  (link.transport.flush link.uses link.sent.length, { link with uses := link.uses + 1 })

/-- offer bytes and have them passed on -/
def send (link : Link) (data : List UInt8) : Except String Unit × Link :=
  match link.writeAll data with
  | (.ok _, link) => link.flush
  | failure => failure

end Link

end MessageBus
