import PyCommon.Http.Idempotency.Records

/-!
# Replaying what was recorded

A done record goes through two charsets. The header names and values are decoded as
UTF-8 by `send_wrapper` and encoded as UTF-8 by `_replay`; the body is decoded and
encoded as latin-1. The second pair is a bijection on bytes. The first is one only on
valid UTF-8, and where it raises it has already set the status and leaves the
headers empty.

So for a response with one start the replay is the original, with the same status
and body and the same headers less those that are computed anew
(`faithfulReplay`), exactly when the headers of the start are valid UTF-8, or all of
them are among those computed anew (`replay_faithful_iff`). An app that survives the
exception of the `send` that carries a latin-1 header and returns leaves a record
with the status and no headers (`latin1_header_lost`).
-/

set_option autoImplicit false

namespace PyCommon.Idempotency

open StepSystem

variable {cfg : IdempotencyMiddleware} {sha256 : Bytes → String}

/-! ## The replay of a response -/

/-- The bytes of a body message. -/
def chunkOf : SendMessage → Bytes
  | .body chunk _ => chunk
  | _ => []

/-- The concatenation of the chunks sent. -/
def bodyBytes (messages : List SendMessage) : Bytes := messages.flatMap chunkOf

/-- The headers `_replay` leaves out, because they are computed anew. -/
def recomputed : List String := ["content-length", "date", "server"]

/-- The name is one of these, ignoring case. -/
def Recomputed (name : Bytes) : Prop := lowerBytes name ∈ recomputed.map encode

instance (name : Bytes) : Decidable (Recomputed name) := by
  unfold Recomputed
  infer_instance

/-- What a faithful replay sends of a response with that start: the same status, the
headers in order without those computed anew, followed by the length of the body and
the replay marker, and the whole body. -/
def faithfulReplay (status : ℤ) (headers : List (Bytes × Bytes)) (body : Bytes) :
    List SendMessage :=
  [.start status (headers.filter (fun pair => ¬ Recomputed pair.1) ++
      [(encode "content-length", encode (toString body.length)),
        (encode "Idempotent-Replay", encode "true")]),
    .body body false]

/-- `bytes.decode()` does not raise. -/
def IsUtf8 (raw : Bytes) : Prop := ∃ text, decode raw = .ok text

theorem recomputed_iff (name : String) : Recomputed (encode name) ↔ lower name ∈ recomputed := by
  rw [Recomputed, ← encode_lower, List.mem_map_of_injective encode_injective]

/-! ## Headers -/

theorem decodeHeaders_cons (pair : Bytes × Bytes) (raw : List (Bytes × Bytes)) :
    decodeHeaders (pair :: raw) = do
      let key ← decode pair.1
      let value ← decode pair.2
      let headers ← decodeHeaders raw
      return (key, value) :: headers := by
  simp only [decodeHeaders, List.mapM_cons, bind_assoc, pure_bind]

/-- Headers that were decoded encode back to the bytes. -/
theorem encode_decodeHeaders {raw : List (Bytes × Bytes)} {headers : List (String × String)}
    (decoded : decodeHeaders raw = .ok headers) :
    headers.map (fun pair => (encode pair.1, encode pair.2)) = raw := by
  induction raw generalizing headers with
  | nil =>
      obtain rfl := Except.ok.inj decoded
      rfl
  | cons pair raw ih =>
      rw [decodeHeaders_cons] at decoded
      cases key : decode pair.1 with
      | error e =>
          rw [key] at decoded
          cases decoded
      | ok name =>
          cases value : decode pair.2 with
          | error e =>
              rw [key, value] at decoded
              cases decoded
          | ok text =>
              cases later : decodeHeaders raw with
              | error e =>
                  rw [key, value, later] at decoded
                  cases decoded
              | ok rest =>
                  rw [key, value, later] at decoded
                  obtain rfl := Except.ok.inj decoded
                  rw [List.map_cons, ih later, encode_of_decode key, encode_of_decode value]

/-- Headers can be decoded exactly when each name and value can. -/
theorem decodeHeaders_isOk_iff (raw : List (Bytes × Bytes)) :
    (∃ headers, decodeHeaders raw = .ok headers) ↔
      ∀ pair ∈ raw, IsUtf8 pair.1 ∧ IsUtf8 pair.2 := by
  induction raw with
  | nil => exact ⟨fun _ _ member => absurd member List.not_mem_nil, fun _ => ⟨[], rfl⟩⟩
  | cons pair raw ih =>
      rw [List.forall_mem_cons, ← ih, decodeHeaders_cons, IsUtf8, IsUtf8]
      cases key : decode pair.1 with
      | error e => simp [bind, Except.bind]
      | ok name =>
          cases value : decode pair.2 with
          | error e => simp [bind, Except.bind]
          | ok text =>
              cases later : decodeHeaders raw with
              | error e => simp [bind, Except.bind]
              | ok rest => simp [bind, Except.bind, pure, Except.pure]

/-! ## What the recorder keeps of a response -/

theorem record_of_not_isStart (maxStoredBytes : ℤ) (recorder : Recorder) {message : SendMessage}
    (other : ¬ message.isStart) :
    (recorder.record maxStoredBytes message).1.status = recorder.status ∧
      (recorder.record maxStoredBytes message).1.headers = recorder.headers := by
  cases message with
  | start status headers => exact absurd rfl other
  | body chunk moreBody =>
      simp only [Recorder.record]
      split
      · exact ⟨rfl, rfl⟩
      · exact ⟨rfl, rfl⟩
  | other type => exact ⟨rfl, rfl⟩

/-- Only a start changes the status and the headers. -/
theorem recordAll_of_noStart (maxStoredBytes : ℤ) (recorder : Recorder)
    {messages : List SendMessage} (noStart : ∀ message ∈ messages, ¬ message.isStart) :
    (recordAll maxStoredBytes recorder messages).status = recorder.status ∧
      (recordAll maxStoredBytes recorder messages).headers = recorder.headers := by
  induction messages generalizing recorder with
  | nil => exact ⟨rfl, rfl⟩
  | cons message messages ih =>
      obtain ⟨here, later⟩ := List.forall_mem_cons.mp noStart
      obtain ⟨status, headers⟩ := record_of_not_isStart maxStoredBytes recorder here
      obtain ⟨statusLater, headersLater⟩ := ih (recorder.record maxStoredBytes message).1 later
      exact ⟨statusLater.trans status, headersLater.trans headers⟩

theorem recordAll_append (maxStoredBytes : ℤ) (recorder : Recorder)
    (first later : List SendMessage) :
    recordAll maxStoredBytes recorder (first ++ later) =
      recordAll maxStoredBytes (recordAll maxStoredBytes recorder first) later :=
  List.foldl_append

/-- Of a response with one start the recorder keeps the status, and the headers if
they can be decoded. -/
theorem recordAll_of_oneStart (maxStoredBytes : ℤ) {messages : List SendMessage} {status : ℤ}
    {raw : List (Bytes × Bytes)}
    (one : messages.filter SendMessage.isStart = [.start status raw]) :
    (recordAll maxStoredBytes {} messages).status = status ∧
      (recordAll maxStoredBytes {} messages).headers =
        match decodeHeaders raw with
        | .ok headers => headers
        | .error _ => [] := by
  obtain ⟨first, later, rfl, noneBefore, -, noneAfter⟩ := List.filter_eq_cons_iff.mp one
  have after : ∀ message ∈ later, ¬ message.isStart := by
    intro message member start
    have kept := List.mem_filter.mpr ⟨member, start⟩
    rw [noneAfter] at kept
    exact List.not_mem_nil kept
  rw [recordAll_append, recordAll_cons]
  obtain ⟨-, empty⟩ := recordAll_of_noStart maxStoredBytes {} noneBefore
  obtain ⟨keptStatus, keptHeaders⟩ := recordAll_of_noStart maxStoredBytes
    ((recordAll maxStoredBytes {} first).record maxStoredBytes (.start status raw)).1 after
  rw [keptStatus, keptHeaders, Recorder.record]
  cases decodeHeaders raw with
  | ok headers => exact ⟨rfl, rfl⟩
  | error e => exact ⟨rfl, empty⟩

/-- A chunk is kept, unless it makes the body too large. -/
theorem record_chunks {maxStoredBytes : ℤ} {recorder : Recorder} {message : SendMessage}
    (fits : (recorder.record maxStoredBytes message).1.tooLarge = false) :
    (recorder.record maxStoredBytes message).1.chunks.flatten =
      recorder.chunks.flatten ++ chunkOf message := by
  cases message with
  | start status headers =>
      simp only [Recorder.record, chunkOf, List.append_nil]
      cases decodeHeaders headers with
      | ok headers => rfl
      | error e => rfl
  | body chunk moreBody =>
      simp only [Recorder.record] at fits ⊢
      split at fits
      · cases fits
      · rename_i small
        rw [if_neg small]
        simp [chunkOf]
  | other type => exact (List.append_nil _).symm

/-- A body that is not too large is kept whole. -/
theorem recordAll_chunks {maxStoredBytes : ℤ} (recorder : Recorder) {messages : List SendMessage}
    (fits : (recordAll maxStoredBytes recorder messages).tooLarge = false) :
    (recordAll maxStoredBytes recorder messages).chunks.flatten =
      recorder.chunks.flatten ++ bodyBytes messages := by
  induction messages generalizing recorder with
  | nil => rw [recordAll_nil, bodyBytes, List.flatMap_nil, List.append_nil]
  | cons message messages ih =>
      have here : (recorder.record maxStoredBytes message).1.tooLarge = false := by
        by_contra large
        rw [recordAll_cons] at fits
        have stays : (recordAll maxStoredBytes (recorder.record maxStoredBytes message).1
            messages).tooLarge = true :=
          (recordAll_tooLarge _ messages).mpr (.inl (by simpa using large))
        rw [fits] at stays
        cases stays
      rw [recordAll_cons] at fits ⊢
      rw [ih _ fits, record_chunks here, List.append_assoc]
      rfl

/-! ## Fidelity -/

/-- With all headers decoded, the headers sent are the original ones in order, less
those computed anew. -/
theorem kept_of_decodeHeaders {raw : List (Bytes × Bytes)} {headers : List (String × String)}
    (decoded : decodeHeaders raw = .ok headers) :
    (headers.filter fun pair => lower pair.1 ∉ recomputed).map
        (fun pair => (encode pair.1, encode pair.2)) =
      raw.filter fun pair => ¬ Recomputed pair.1 := by
  rw [← encode_decodeHeaders decoded, List.filter_map]
  refine congrArg _ (List.filter_congr fun pair _ => ?_)
  simp only [Function.comp_apply, recomputed_iff]

theorem replay_eq (fingerprint : String) (status : ℤ) (headers : List (String × String))
    (body : Bytes) :
    replay ⟨fingerprint, status, headers, decodeLatin1 body⟩ =
      .ok [.start status ((headers.filter fun pair => lower pair.1 ∉ recomputed).map
              (fun pair => (encode pair.1, encode pair.2)) ++
            [(encode "content-length", encode (toString body.length)),
              (encode "Idempotent-Replay", encode "true")]),
          .body body false] := by
  rw [replay, encodeLatin1_decodeLatin1]
  rfl

/-- The replay of a record of a response with one start is faithful exactly when the
headers could be decoded or there was nothing in them to keep. -/
theorem replay_eq_faithful_iff {maxStoredBytes : ℤ} {messages : List SendMessage}
    {fingerprint : String} {record : DoneRecord} {status : ℤ} {raw : List (Bytes × Bytes)}
    (one : messages.filter SendMessage.isStart = [.start status raw])
    (finished : (recordAll maxStoredBytes {} messages).finish fingerprint = some record) :
    replay record = .ok (faithfulReplay status raw (bodyBytes messages)) ↔
      (∀ pair ∈ raw, IsUtf8 pair.1 ∧ IsUtf8 pair.2) ∨ ∀ pair ∈ raw, Recomputed pair.1 := by
  obtain ⟨sameStatus, sameHeaders⟩ := recordAll_of_oneStart maxStoredBytes one
  unfold Recorder.finish at finished
  split at finished
  · cases finished
  · rename_i recorded
    obtain rfl := Option.some.inj finished
    have fits : (recordAll maxStoredBytes {} messages).tooLarge = false := by
      simpa using fun large => recorded (.inr large)
    have body : (recordAll maxStoredBytes {} messages).chunks.flatten = bodyBytes messages :=
      recordAll_chunks {} fits
    rw [body, sameStatus, sameHeaders, replay_eq]
    cases decoded : decodeHeaders raw with
    | ok headers =>
        have utf8 := (decodeHeaders_isOk_iff raw).mp ⟨headers, decoded⟩
        refine ⟨fun _ => .inl utf8, fun _ => ?_⟩
        dsimp only
        rw [kept_of_decodeHeaders decoded, faithfulReplay]
    | error e =>
        have notUtf8 : ¬ ∀ pair ∈ raw, IsUtf8 pair.1 ∧ IsUtf8 pair.2 := by
          rw [← decodeHeaders_isOk_iff, decoded]
          rintro ⟨headers, same⟩
          cases same
        rw [or_iff_right notUtf8, faithfulReplay]
        simp [List.filter_eq_nil_iff]

/-- **When a replay is faithful.** A done record in the store, whose writer's app sent
one start, is replayed with the same status, the body sent byte for byte and the
same headers less those computed anew, exactly when every header name and value of
the start is valid UTF-8, or every header is one of those computed anew. -/
theorem replay_faithful_iff {s t : Sys} {ls : List Label} (fresh : s.Fresh)
    (vacant : ∀ key, s.store key = none) (run : exec (step cfg sha256) s ls = some t)
    {key : String} {slot : Keyspace.Slot Held} {record : DoneRecord}
    (held : t.store key = some slot) (done : slot.value.value = .done record) {p : Proc}
    (writer : t.procs slot.value.writer = some p) {status : ℤ} {raw : List (Bytes × Bytes)}
    (one : p.handed.filter SendMessage.isStart = [.start status raw]) :
    replay record = .ok (faithfulReplay status raw (bodyBytes p.handed)) ↔
      (∀ pair ∈ raw, IsUtf8 pair.1 ∧ IsUtf8 pair.2) ∨ ∀ pair ∈ raw, Recomputed pair.1 := by
  have sourced := (allSourced_of_run fresh vacant run).store key slot held
  obtain ⟨q, there, -, -, -, recorded⟩ := sourced
  obtain rfl := Option.some.inj (writer.symm.trans there)
  obtain ⟨-, -, finished⟩ := recorded record done
  have follows : p.recorder = recordAll cfg.maxStoredBytes {} p.handed :=
    follows_of_run (fun id => (fresh id).1) run writer
  rw [follows] at finished
  exact replay_eq_faithful_iff one finished

/-- An order answered with a date, two cookies and a body of two bytes. -/
def datedOrder : Request :=
  { order 201 with
    app := .sending [.start 201 [(encode "Date", encode "today"), (encode "set-cookie", encode "a"),
      (encode "set-cookie", encode "b")], .body [255, 0] false] }

/-- Its replay keeps both cookies and every byte of the body, and drops the date. -/
theorem dated_order_replayed :
    ∃ t ∈ exec (step {} decodeLatin1) {} (claiming 0 datedOrder ++ answering 0 ++ settling 0),
      ∃ p ∈ t.procs 0, ∃ slot ∈ t.store (orderTicket.redisKey decodeLatin1 {}), ∃ record,
        slot.value.value = .done record ∧
          replay record = .ok (faithfulReplay 201 [(encode "Date", encode "today"),
            (encode "set-cookie", encode "a"), (encode "set-cookie", encode "b")]
              (bodyBytes p.handed)) := by
  let stored : DoneRecord := ⟨orderTicket.fingerprint decodeLatin1, 201,
    [("Date", "today"), ("set-cookie", "a"), ("set-cookie", "b")], decodeLatin1 [255, 0]⟩
  obtain ⟨t, run, p, there, slot, held, writer, done, one⟩ :
      ∃ t ∈ exec (step {} decodeLatin1) {} (claiming 0 datedOrder ++ answering 0 ++ settling 0),
        ∃ p ∈ t.procs 0, ∃ slot ∈ t.store (orderTicket.redisKey decodeLatin1 {}),
          slot.value.writer = 0 ∧ slot.value.value = .done stored ∧
            p.handed.filter SendMessage.isStart = [.start 201 [(encode "Date", encode "today"),
              (encode "set-cookie", encode "a"), (encode "set-cookie", encode "b")]] := by
    decide +kernel
  have utf8 : ∀ text, IsUtf8 (encode text) := fun text => ⟨text, decode_encode text⟩
  refine ⟨t, run, p, there, slot, held, stored, done, ?_⟩
  refine (replay_faithful_iff (fun _ => ⟨rfl, rfl⟩) (fun _ => rfl) run held done
    (writer ▸ there) one).mpr (.inl ?_)
  simp [utf8]

/-- An order whose handler sends a header in latin-1 and gives up when `send` raises. -/
def latin1Order : Request :=
  { order 200 with
    app := .send (.start 200 [(encode "x-name", [233])]) fun result =>
      match result with
      | .ok _ => .sending [.body [104, 105] false]
      | .error _ => .done }

/-- **A latin-1 header is lost, and the failure is recorded as a success.** The
`send` of the start raises, the app survives it, and the record says 200 with no
headers; a faithful replay would carry the header. -/
theorem latin1_header_lost :
    ∃ t ∈ exec (step {} decodeLatin1) {}
        (claiming 0 latin1Order ++ [.resume 0 none, .resume 0 none] ++ settling 0),
      (∃ p ∈ t.procs 0, p.handed = [.start 200 [(encode "x-name", [233])]]) ∧
        let stored : DoneRecord := ⟨orderTicket.fingerprint decodeLatin1, 200, [], ""⟩
        (∃ slot ∈ t.store (orderTicket.redisKey decodeLatin1 {}), slot.value = ⟨.done stored, 0⟩) ∧
          (replay stored).toOption ≠ some (faithfulReplay 200 [(encode "x-name", [233])] []) := by
  decide +kernel

end PyCommon.Idempotency
