import PyCommon.Asgi

/-!
# Handing over a request body

`_buffer_body` reads the request body to its end and gives the wrapped app a
`receive` that hands the joined body over as one final chunk. An app that reads a
body until it is told that the body ended, or that the client is gone, learns a
body, which of the two it was, and what is left to receive (`observe`).

Reading through the replay and reading the original stream give the same
observation when the stream ended in a final chunk, and never when the client
disconnected first: the replay hands the chunks that did arrive over as a complete
body (`replay_observes_iff`, `upload_cut_short_looks_complete`).
-/

set_option autoImplicit false

namespace PyCommon.Idempotency

/-! ## The replay -/

/-- A `receive`. `pending` is the body that `replay` has still to hand over; after
that the messages are the client's. -/
structure Receiver where
  pending : Option Bytes := none
  stream : List ReceiveMessage
  deriving DecidableEq

/-- One call. `none` while nothing has arrived. -/
def Receiver.next (receiver : Receiver) : Option (ReceiveMessage × Receiver) :=
  match receiver.pending, receiver.stream with
  | some body, stream => some (.request body false, ⟨none, stream⟩)
  | none, message :: stream => some (message, ⟨none, stream⟩)
  | none, [] => none

/-- The loop of `_buffer_body`, which stops at a message that is no
`http.request`. `none` while it waits for the next message. -/
def bufferBody (chunks : List Bytes) : List ReceiveMessage → Option (Bytes × Receiver)
  | [] => none
  | .disconnect :: later => some (chunks.flatten, ⟨some chunks.flatten, later⟩)
  | .request chunk moreBody :: later =>
      if moreBody then bufferBody (chunks ++ [chunk]) later
      else some ((chunks ++ [chunk]).flatten, ⟨some (chunks ++ [chunk]).flatten, later⟩)

/-! ## Reading a body -/

/-- What reading a body tells: the bytes, whether they are all of it, and the
messages that come after. -/
structure Observation where
  body : Bytes
  complete : Bool
  later : List ReceiveMessage
  deriving DecidableEq

/-- The messages a receiver will yield. -/
def Receiver.messages (receiver : Receiver) : List ReceiveMessage :=
  match receiver.pending with
  | some body => .request body false :: receiver.stream
  | none => receiver.stream

theorem messages_of_next {receiver rest : Receiver} {message : ReceiveMessage}
    (next : receiver.next = some (message, rest)) :
    receiver.messages = message :: rest.messages := by
  obtain ⟨pending, stream⟩ := receiver
  cases pending with
  | some body =>
      obtain ⟨rfl, rfl⟩ := Prod.mk.inj (Option.some.inj next)
      rfl
  | none =>
      cases stream with
      | nil => cases next
      | cons head stream =>
          obtain ⟨rfl, rfl⟩ := Prod.mk.inj (Option.some.inj next)
          rfl

/-- Read up to the final chunk or a disconnect. `none` while the body goes on. -/
def observe (read : Bytes) : List ReceiveMessage → Option Observation
  | [] => none
  | .disconnect :: later => some ⟨read, false, later⟩
  | .request chunk moreBody :: later =>
      if moreBody then observe (read ++ chunk) later else some ⟨read ++ chunk, true, later⟩

/-! ## Streams that end -/

/-- How a client ends a body. -/
inductive BodyEnd where
  | lastChunk (chunk : Bytes)
  | disconnect
  deriving DecidableEq

def BodyEnd.message : BodyEnd → ReceiveMessage
  | .lastChunk chunk => .request chunk false
  | .disconnect => .disconnect

/-- The bytes the ending adds to the body. -/
def BodyEnd.bytes : BodyEnd → Bytes
  | .lastChunk chunk => chunk
  | .disconnect => []

/-- Chunks that announce more, an ending, and whatever follows it. -/
def bodyStream (chunks : List Bytes) (ending : BodyEnd) (later : List ReceiveMessage) :
    List ReceiveMessage :=
  chunks.map (fun chunk => .request chunk true) ++ ending.message :: later

theorem observe_bodyStream (read : Bytes) (chunks : List Bytes) (ending : BodyEnd)
    (later : List ReceiveMessage) :
    observe read (bodyStream chunks ending later) =
      some ⟨read ++ chunks.flatten ++ ending.bytes, ending ≠ .disconnect, later⟩ := by
  induction chunks generalizing read with
  | nil => cases ending <;> simp [bodyStream, BodyEnd.message, BodyEnd.bytes, observe]
  | cons chunk chunks ih =>
      have next : observe read (bodyStream (chunk :: chunks) ending later) =
          observe (read ++ chunk) (bodyStream chunks ending later) := rfl
      rw [next, ih, List.flatten_cons, List.append_assoc read]

/-- Buffering stops at the ending, with the bytes that arrived. -/
theorem bufferBody_bodyStream (read chunks : List Bytes) (ending : BodyEnd)
    (later : List ReceiveMessage) :
    bufferBody read (bodyStream chunks ending later) =
      some (read.flatten ++ chunks.flatten ++ ending.bytes,
        ⟨some (read.flatten ++ chunks.flatten ++ ending.bytes), later⟩) := by
  induction chunks generalizing read with
  | nil => cases ending <;> simp [bodyStream, BodyEnd.message, BodyEnd.bytes, bufferBody]
  | cons chunk chunks ih =>
      have next : bufferBody read (bodyStream (chunk :: chunks) ending later) =
          bufferBody (read ++ [chunk]) (bodyStream chunks ending later) := rfl
      rw [next, ih]
      simp only [List.flatten_append, List.flatten_cons, List.flatten_nil, List.append_nil,
        List.append_assoc]

/-- **The replay is faithful exactly to bodies that were complete.** -/
theorem replay_observes_iff (chunks : List Bytes) (ending : BodyEnd)
    (later : List ReceiveMessage) :
    ∃ body receiver, bufferBody [] (bodyStream chunks ending later) = some (body, receiver) ∧
      (observe [] receiver.messages = observe [] (bodyStream chunks ending later) ↔
        ending ≠ .disconnect) := by
  refine ⟨_, _, bufferBody_bodyStream [] chunks ending later, ?_⟩
  rw [observe_bodyStream]
  cases ending with
  | lastChunk chunk => simp [Receiver.messages, observe, BodyEnd.bytes]
  | disconnect => simp [Receiver.messages, observe, BodyEnd.bytes]

/-- A client that goes away after announcing more is read as gone; through the
replay its one chunk is read as the whole body. -/
theorem upload_cut_short_looks_complete :
    let stream : List ReceiveMessage := [.request [123, 125] true, .disconnect]
    observe [] stream = some ⟨[123, 125], false, []⟩ ∧
      (bufferBody [] stream).map (fun buffered => observe [] buffered.2.messages) =
        some (some ⟨[123, 125], true, []⟩) := by
  decide

end PyCommon.Idempotency
