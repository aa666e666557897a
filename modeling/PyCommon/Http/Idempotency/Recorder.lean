import Mathlib.Algebra.BigOperators.Group.List.Basic
import Mathlib.Algebra.Order.Ring.Int
import PyCommon.Asgi

/-!
# Recording a response

The middleware watches the messages the wrapped app sends and keeps the status,
the headers and the body chunks that fit (`Recorder.record`). When the app has
returned, what was kept becomes a done record, unless the status is a server error
or the body was too large (`Recorder.finish`), and a done record is turned back
into messages for a later client (`replay`).

The recorder does not look at whether the response ended. What it holds after a
sequence of messages is the status of the last start, zero if there was none, and
whether the bodies exceed the limit (`recordAll_status`, `recordAll_tooLarge`). So a
record describes a complete response exactly when the sequence was finished
(`complete_of_finish_iff`).
-/

set_option autoImplicit false

namespace PyCommon.Idempotency

/-! ## The recorder -/

/-- The `nonlocal` variables of `send_wrapper`. -/
structure Recorder where
  status : ℤ := 0
  headers : List (String × String) := []
  chunks : List Bytes := []
  tooLarge : Bool := false
  deriving DecidableEq

/-- The stored form of a finished response. -/
structure DoneRecord where
  fingerprint : String
  status : ℤ
  headers : List (String × String)
  body : String
  deriving DecidableEq

/-- The header list in text form, raising at the first name or value that is not
UTF-8. -/
def decodeHeaders (raw : List (Bytes × Bytes)) : Except PyExc (List (String × String)) :=
  raw.mapM fun pair => do
    let key ← decode pair.1
    let value ← decode pair.2
    return (key, value)

/-- The number of bytes kept. -/
def Recorder.size (recorder : Recorder) : ℕ := (recorder.chunks.map List.length).sum

variable (maxStoredBytes : ℤ)

/-- `send_wrapper` up to the point where it forwards the message. A start whose
headers cannot be decoded has set the status by then. -/
def Recorder.record (recorder : Recorder) : SendMessage → Recorder × Except PyExc Unit
  | .start status headers =>
      match decodeHeaders headers with
      | .ok headers => ({ recorder with status, headers }, .ok ())
      | .error e => ({ recorder with status }, .error e)
  | .body chunk _ =>
      if maxStoredBytes < recorder.size + chunk.length then
        ({ recorder with tooLarge := true }, .ok ())
      else ({ recorder with chunks := recorder.chunks ++ [chunk] }, .ok ())
  | .other _ => (recorder, .ok ())

/-- The recorder after a sequence of messages. -/
def recordAll (recorder : Recorder) (messages : List SendMessage) : Recorder :=
  messages.foldl (fun recorder message => (recorder.record maxStoredBytes message).1) recorder

/-- The record written once the app has returned. -/
def Recorder.finish (recorder : Recorder) (fingerprint : String) : Option DoneRecord :=
  if 500 ≤ recorder.status ∨ recorder.tooLarge then none
  else some ⟨fingerprint, recorder.status, recorder.headers,
    decodeLatin1 recorder.chunks.flatten⟩

/-- `_replay`: the messages it sends. -/
def replay (stored : DoneRecord) : Except PyExc (List SendMessage) :=
  let kept := stored.headers.filter fun pair =>
    lower pair.1 ∉ ["content-length", "date", "server"]
  (encodeLatin1 stored.body).map fun body =>
    [.start stored.status (kept.map (fun pair => (encode pair.1, encode pair.2)) ++
        [(encode "content-length", encode (toString body.length)),
         (encode "Idempotent-Replay", encode "true")]),
      .body body false]

/-- Replaying a record gives its status and the recorded body as one final chunk. -/
theorem replay_of_finish {recorder : Recorder} {fingerprint : String} {stored : DoneRecord}
    (finished : recorder.finish fingerprint = some stored) :
    ∃ headers, replay stored =
      .ok [.start recorder.status headers, .body recorder.chunks.flatten false] := by
  unfold Recorder.finish at finished
  split at finished
  · cases finished
  · obtain rfl := Option.some.inj finished
    rw [replay, encodeLatin1_decodeLatin1]
    exact ⟨_, rfl⟩

/-! ## Responses -/

/-- Body messages, the last of which says that nothing follows. -/
def endsBody : List SendMessage → Bool
  | [] => false
  | [.body _ moreBody] => !moreBody
  | .body _ _ :: rest => endsBody rest
  | _ => false

/-- One start followed by a body that ends. -/
def finished : List SendMessage → Bool
  | .start _ _ :: rest => endsBody rest
  | _ => false

/-- The status of the last start. -/
def lastStatus (status : ℤ) (messages : List SendMessage) : ℤ :=
  messages.foldl (fun status message =>
    match message with
    | .start next _ => next
    | _ => status) status

def totalBody (messages : List SendMessage) : ℕ := (messages.map SendMessage.bodyLength).sum

/-- Some body message takes the response past the limit. -/
def Oversized (messages : List SendMessage) : Prop :=
  (∃ message ∈ messages, message.isBody) ∧ maxStoredBytes < totalBody messages

/-- A complete response that may be stored: one start with a status below 500, and
a body that ends and is no larger than the limit. -/
structure CompleteResponse (messages : List SendMessage) : Prop where
  finished : finished messages
  status : lastStatus 0 messages < 500
  size : totalBody messages ≤ maxStoredBytes

/-! ## What the recorder holds -/

variable {maxStoredBytes}

@[simp] theorem recordAll_nil (recorder : Recorder) :
    recordAll maxStoredBytes recorder [] = recorder := rfl

theorem recordAll_cons (recorder : Recorder) (message : SendMessage)
    (messages : List SendMessage) :
    recordAll maxStoredBytes recorder (message :: messages) =
      recordAll maxStoredBytes (recorder.record maxStoredBytes message).1 messages := rfl

variable (maxStoredBytes) in
theorem recordAll_concat (recorder : Recorder) (messages : List SendMessage)
    (message : SendMessage) :
    recordAll maxStoredBytes recorder (messages ++ [message]) =
      ((recordAll maxStoredBytes recorder messages).record maxStoredBytes message).1 :=
  List.foldl_append

theorem record_status (recorder : Recorder) (message : SendMessage) :
    (recorder.record maxStoredBytes message).1.status = lastStatus recorder.status [message] := by
  cases message with
  | start status headers =>
      simp only [Recorder.record]
      cases decodeHeaders headers <;> rfl
  | body chunk moreBody =>
      simp only [Recorder.record]
      split <;> rfl
  | other type => rfl

theorem recordAll_status (recorder : Recorder) (messages : List SendMessage) :
    (recordAll maxStoredBytes recorder messages).status =
      lastStatus recorder.status messages := by
  induction messages generalizing recorder with
  | nil => rfl
  | cons message messages ih =>
      rw [recordAll_cons, ih, record_status]
      rfl

theorem bodyLength_of_not_isBody {message : SendMessage} (other : ¬ message.isBody) :
    message.bodyLength = 0 := by
  cases message with
  | body chunk moreBody => exact absurd rfl other
  | start status headers => rfl
  | other type => rfl

theorem totalBody_cons (message : SendMessage) (messages : List SendMessage) :
    totalBody (message :: messages) = message.bodyLength + totalBody messages := by
  rw [totalBody, List.map_cons, List.sum_cons, totalBody]

theorem totalBody_eq_zero {messages : List SendMessage}
    (none : ¬ ∃ message ∈ messages, message.isBody) : totalBody messages = 0 := by
  refine List.sum_eq_zero fun length member => ?_
  obtain ⟨message, there, rfl⟩ := List.mem_map.mp member
  exact bodyLength_of_not_isBody fun body => none ⟨message, there, body⟩

/-- A message that is no body message leaves the size and the flag alone. -/
theorem record_of_not_isBody (recorder : Recorder) {message : SendMessage}
    (other : ¬ message.isBody) :
    (recorder.record maxStoredBytes message).1.size = recorder.size ∧
      (recorder.record maxStoredBytes message).1.tooLarge = recorder.tooLarge := by
  cases message with
  | start status headers =>
      simp only [Recorder.record]
      cases decodeHeaders headers <;> exact ⟨rfl, rfl⟩
  | body chunk moreBody => exact absurd rfl other
  | other type => exact ⟨rfl, rfl⟩

/-- The flag is set by the first chunk that does not fit, and stays set. -/
theorem recordAll_tooLarge (recorder : Recorder) (messages : List SendMessage) :
    (recordAll maxStoredBytes recorder messages).tooLarge = true ↔
      recorder.tooLarge = true ∨ (∃ message ∈ messages, message.isBody) ∧
        maxStoredBytes < recorder.size + totalBody messages := by
  induction messages generalizing recorder with
  | nil => simp
  | cons message messages ih =>
      rw [recordAll_cons, ih, totalBody_cons]
      by_cases body : message.isBody
      · obtain ⟨chunk, moreBody, rfl⟩ : ∃ chunk moreBody, message = .body chunk moreBody := by
          cases message <;> simp_all [SendMessage.isBody]
        simp only [List.mem_cons, exists_eq_or_imp, body, true_or, true_and,
          SendMessage.bodyLength, Nat.cast_add]
        by_cases exceeds : maxStoredBytes < recorder.size + chunk.length
        · simp only [Recorder.record, if_pos exceeds, true_or, true_iff]
          right
          omega
        · -- the chunk is kept, so only what follows can go past the limit
          have kept : ({ recorder with chunks := recorder.chunks ++ [chunk] } : Recorder).size =
              recorder.size + chunk.length := by simp [Recorder.size]
          simp only [Recorder.record, if_neg exceeds, kept, Nat.cast_add, add_assoc]
          refine or_congr_right ⟨And.right, fun size => ⟨?_, size⟩⟩
          by_contra none
          rw [totalBody_eq_zero none] at size
          omega
      · obtain ⟨size, flag⟩ := record_of_not_isBody recorder body
        rw [size, flag, bodyLength_of_not_isBody body, Nat.zero_add]
        simp [body]

theorem finish_eq_none_iff {recorder : Recorder} {fingerprint : String} :
    recorder.finish fingerprint = none ↔ 500 ≤ recorder.status ∨ recorder.tooLarge := by
  rw [Recorder.finish]
  split <;> simp_all

theorem fingerprint_of_finish {recorder : Recorder} {fingerprint : String} {stored : DoneRecord}
    (finished : recorder.finish fingerprint = some stored) : stored.fingerprint = fingerprint := by
  unfold Recorder.finish at finished
  split at finished
  · cases finished
  · obtain rfl := Option.some.inj finished
    rfl

/-- Nothing is recorded of a server error or of an oversized response, and of
everything else something is. -/
theorem finish_recordAll_eq_none_iff {messages : List SendMessage} {fingerprint : String} :
    (recordAll maxStoredBytes {} messages).finish fingerprint = none ↔
      500 ≤ lastStatus 0 messages ∨ Oversized maxStoredBytes messages := by
  rw [finish_eq_none_iff, recordAll_status, recordAll_tooLarge]
  simp [Oversized, Recorder.size]

theorem CompleteResponse.finish_ne_none {messages : List SendMessage} {fingerprint : String}
    (complete : CompleteResponse maxStoredBytes messages) :
    (recordAll maxStoredBytes {} messages).finish fingerprint ≠ none := by
  rw [ne_eq, finish_recordAll_eq_none_iff]
  rintro (server | ⟨_, size⟩)
  · exact absurd complete.status (not_lt.mpr server)
  · exact absurd complete.size (not_le.mpr size)

theorem exists_isBody_of_endsBody {messages : List SendMessage} (ended : endsBody messages) :
    ∃ message ∈ messages, message.isBody := by
  cases messages with
  | nil => cases ended
  | cons message rest =>
      refine ⟨message, List.mem_cons_self, ?_⟩
      cases message with
      | body chunk moreBody => rfl
      | start status headers => simp [endsBody] at ended
      | other type => simp [endsBody] at ended

theorem exists_isBody_of_finished {messages : List SendMessage} (ended : finished messages) :
    ∃ message ∈ messages, message.isBody := by
  cases messages with
  | nil => cases ended
  | cons message rest =>
      cases message with
      | start status headers =>
          obtain ⟨body, member, isBody⟩ := exists_isBody_of_endsBody ended
          exact ⟨body, List.mem_cons_of_mem _ member, isBody⟩
      | body chunk moreBody => cases ended
      | other type => cases ended

/-- A record is of a complete response exactly when the messages were finished, or
when there is no record. -/
theorem complete_of_finish_iff {messages : List SendMessage} {fingerprint : String} :
    ((recordAll maxStoredBytes {} messages).finish fingerprint ≠ none →
        CompleteResponse maxStoredBytes messages) ↔
      finished messages ∨ 500 ≤ lastStatus 0 messages ∨ Oversized maxStoredBytes messages := by
  rw [ne_eq, finish_recordAll_eq_none_iff]
  constructor
  · intro only
    by_cases recorded : 500 ≤ lastStatus 0 messages ∨ Oversized maxStoredBytes messages
    · exact .inr recorded
    · exact .inl (only recorded).finished
  · rintro (ended | recorded) kept
    · rw [not_or, Int.not_le] at kept
      refine ⟨ended, kept.1, ?_⟩
      by_contra exceeds
      exact kept.2 ⟨exists_isBody_of_finished ended, not_le.mp exceeds⟩
    · exact absurd recorded kept

end PyCommon.Idempotency
