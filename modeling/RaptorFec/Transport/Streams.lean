import RaptorFec.Datagram.Lossy
import RaptorFec.Media.Arrivals
import RaptorFec.Transport.Adapter

/-!
# Streams on one wire

An encoder with a stream id puts it in front of every datagram, and a decoder with a stream id takes
only messages that start with it.  So several streams can share a wire: every receiver sees the
messages of all of them, and works as if it saw only its own.

* `FecDatagramEncoder`, `FecDatagramDecoder` — the source's types;
* `serves_stream` — to each stream the receiver is a plain decoder;
* `PayloadStream` — a sender with a stream id, and what it sent;
* `streams_recovered` — what every receiver returns, whatever the other streams do.
-/

namespace RaptorFec

/-! ## The encoder -/

structure FecDatagramEncoder where
  inner : DatagramFecEncoder
  streamIdMode : StreamIdMode
  deriving DecidableEq, Repr

structure EncodedTransportMediaFrame where
  sequence : UInt64
  fragmentCount : UInt16
  decision : FecDecision
  blocks : List EncodedMediaBlock
  datagrams : List Bytes

namespace FecDatagramEncoder

def new (config : FecTransportConfig) : FecDatagramEncoder :=
  ⟨DatagramFecEncoder.new, config.streamIdMode⟩

def webtransport : FecDatagramEncoder := new .webtransport

def webtransportWithStreamPrefix (streamId : UInt64) : FecDatagramEncoder :=
  new (.webtransportWithStreamPrefix streamId)

def webrtc : FecDatagramEncoder := new .webrtc

variable (X : Crates) (self : FecDatagramEncoder)

/-- `encode_payload`, with the encoder after the call. -/
def encodePayload (payload : Bytes) :
    Option (Except DatagramFecError (List Bytes) × FecDatagramEncoder) :=
  (self.inner.encodePayload X payload none).map fun (result, inner, _) =>
    (result.map (List.map (addPrefix self.streamIdMode.idPrefix)), { self with inner := inner })

/-- `encode_media_frame`, with the media encoder after the call. -/
def encodeMediaFrame (media : MediaFecEncoder) (frame : MediaFrame) :
    Option (Except MediaFecError EncodedTransportMediaFrame × MediaFecEncoder) :=
  (media.encodeFrame X frame).map fun (result, media) =>
    (result.map fun encoded =>
      { sequence := encoded.sequence
        fragmentCount := encoded.fragmentCount
        decision := encoded.decision
        blocks := encoded.blocks
        datagrams := encoded.datagrams.map (addPrefix self.streamIdMode.idPrefix) }, media)

end FecDatagramEncoder

/-! ## The decoder -/

structure FecDatagramDecoder (X : Crates) where
  inner : DatagramFecDecoder X
  streamIdMode : StreamIdMode

inductive FecTransportMediaError where
  | transport (error : FecTransportError)
  | media (error : MediaFecError)
  deriving DecidableEq, Repr

namespace FecDatagramDecoder

variable {X : Crates}

def new (config : FecTransportConfig) : FecDatagramDecoder X :=
  ⟨DatagramFecDecoder.new, config.streamIdMode⟩

def webtransport : FecDatagramDecoder X := new .webtransport

def webtransportWithStreamPrefix (streamId : UInt64) : FecDatagramDecoder X :=
  new (.webtransportWithStreamPrefix streamId)

def webrtc : FecDatagramDecoder X := new .webrtc

variable (self : FecDatagramDecoder X)

/-- `push_datagram`, with the decoder after the call. -/
def pushDatagram (datagram : Bytes) :
    Except FecTransportError (Option Bytes) × FecDatagramDecoder X :=
  match stripTransportPrefix self.streamIdMode datagram with
  | .error error => (.error error, self)
  | .ok payload =>
      let (result, inner) := self.inner.pushDatagram payload
      (result.mapError .fec, { self with inner := inner })

/-- `push_media_datagram`, with the media decoder after the call. -/
def pushMediaDatagram (media : MediaFecDecoder X) (datagram : Bytes) :
    Except FecTransportMediaError (Option DecodedMediaFrame) × MediaFecDecoder X :=
  match stripTransportPrefix self.streamIdMode datagram with
  | .error error => (.error (.transport error), media)
  | .ok payload =>
      let (result, media) := media.pushDatagram payload
      (result.mapError .media, media)

def sequenceStats : SequenceStats := self.inner.sequenceStats

end FecDatagramDecoder

/-! ## One stream among others -/

/-- What a receiver of the mode finds in a message: nothing in a message that is not its own. -/
def payloadOf (mode : StreamIdMode) (message : Bytes) : Option Bytes :=
  (stripTransportPrefix mode message).toOption

section Stream

open MultichannelAudioTransportAdapter (stripTransportPrefix_addPrefix splitStreamIdPrefix_append)

variable {X : Crates} {mode : StreamIdMode} {message payload : Bytes}

lemma payloadOf_eq_some : payloadOf mode message = some payload ↔
    stripTransportPrefix mode message = .ok payload := by
  rw [payloadOf]
  cases stripTransportPrefix mode message with
  | error error => simp [Except.toOption]
  | ok found => simp [Except.toOption]

lemma payloadOf_eq_none : payloadOf mode message = none ↔
    ∃ error, stripTransportPrefix mode message = .error error := by
  rw [payloadOf]
  cases stripTransportPrefix mode message with
  | error error => simp [Except.toOption]
  | ok found => simp [Except.toOption]

lemma payloadOf_addPrefix (mode : StreamIdMode) (datagram : Bytes) :
    payloadOf mode (addPrefix mode.idPrefix datagram) = some datagram :=
  payloadOf_eq_some.mpr (stripTransportPrefix_addPrefix mode datagram)

/-- A message of another stream names this stream. -/
lemma stripTransportPrefix_other {expected actual : UInt64} (hne : actual ≠ expected)
    (datagram : Bytes) : stripTransportPrefix (.prefix64Be expected)
        (addPrefix (StreamIdMode.prefix64Be actual).idPrefix datagram)
      = .error (.unexpectedStreamId expected actual) := by
  rw [StreamIdMode.idPrefix, addPrefix, stripTransportPrefix, splitStreamIdPrefix_append]
  exact if_pos hne

/-- **To its stream a receiver is a plain decoder**: the messages of others leave no trace. -/
lemma serves_stream (X : Crates) (mode : StreamIdMode) :
    Serves (FecDatagramDecoder.pushDatagram (X := X)) DatagramFecDecoder.pushDatagram
      (payloadOf mode) (fun output result => output = result.mapError .fec)
      (fun receiver decoder => receiver.inner = decoder ∧ receiver.streamIdMode = mode)
      (fun _ => True) where
  mine := by
    rintro receiver _ message payload ⟨rfl, rfl⟩ - hpayload
    rw [FecDatagramDecoder.pushDatagram, payloadOf_eq_some.mp hpayload]
    exact ⟨rfl, rfl, rfl⟩
  others := by
    rintro receiver _ message ⟨rfl, rfl⟩ - hnone
    obtain ⟨error, herror⟩ := payloadOf_eq_none.mp hnone
    rw [FecDatagramDecoder.pushDatagram, herror]
    exact ⟨rfl, rfl⟩

/-- The same for the media frames of a stream. -/
lemma serves_media_stream (receiver : FecDatagramDecoder X) :
    Serves (fun media message => receiver.pushMediaDatagram media message)
      MediaFecDecoder.pushDatagram (payloadOf receiver.streamIdMode)
      (fun output result => output = result.mapError .media) Eq (fun _ => True) where
  mine := by
    rintro media _ message payload rfl - hpayload
    rw [FecDatagramDecoder.pushMediaDatagram, payloadOf_eq_some.mp hpayload]
    exact ⟨rfl, rfl⟩
  others := by
    rintro media _ message rfl - hnone
    obtain ⟨error, herror⟩ := payloadOf_eq_none.mp hnone
    rw [FecDatagramDecoder.pushMediaDatagram, herror]

/-- The piece that the push of a message returns, with the block id that the message carries. -/
def returnedPiece (X : Crates) (mode : StreamIdMode) (message : Bytes)
    (output : Except FecTransportError (Option Bytes)) : Option (UInt32 × Bytes) := do
  let payload ← payloadOf mode message
  let symbol ← wireSymbol X payload
  let returned ← output.toOption
  returned.map fun object => (symbol.1, object)

/-- The pieces that the pushes of a run return. -/
def returnedPieces (X : Crates) (mode : StreamIdMode) (messages : List Bytes)
    (outputs : List (Except FecTransportError (Option Bytes))) : List (UInt32 × Bytes) :=
  (List.zipWith (returnedPiece X mode) messages outputs).reduceOption

/-- A receiver returns what a plain decoder returns of its own payloads. -/
lemma returnedPieces_run (receiver : FecDatagramDecoder X) (hmode : receiver.streamIdMode = mode)
    (messages : List Bytes) :
    returnedPieces X mode messages (runOutputs FecDatagramDecoder.pushDatagram receiver messages)
      = returnedBlocks X (messages.filterMap (payloadOf mode))
          (runOutputs DatagramFecDecoder.pushDatagram receiver.inner
            (messages.filterMap (payloadOf mode))) := by
  induction messages generalizing receiver with
  | nil => rfl
  | cons message messages ih =>
      rw [returnedPieces, runOutputs_cons, List.zipWith_cons_cons]
      cases hpayload : payloadOf mode message with
      | none =>
          obtain ⟨hinner, hmode'⟩ := (serves_stream X mode).others receiver _ message ⟨rfl, hmode⟩
            trivial hpayload
          have hpiece : ∀ output, returnedPiece X mode message output = none := by
            intro output
            rw [returnedPiece, hpayload]
            rfl
          rw [hpiece, List.reduceOption_cons_of_none, List.filterMap_cons_none hpayload]
          exact (ih _ hmode').trans (by rw [hinner])
      | some payload =>
          obtain ⟨hout, hinner, hmode'⟩ := (serves_stream X mode).mine receiver _ message payload
            ⟨rfl, hmode⟩ trivial hpayload
          have hpiece : returnedPiece X mode message (receiver.pushDatagram message).1
              = returnedBlock X payload (receiver.inner.pushDatagram payload).1 := by
            rw [returnedPiece, hpayload, hout, returnedBlock]
            cases (receiver.inner.pushDatagram payload).1 with
            | error error => rfl
            | ok returned => rfl
          have hrest := ih _ hmode'
          rw [returnedPieces, hinner] at hrest
          rw [hpiece, List.filterMap_cons_some hpayload, returnedBlocks, runOutputs_cons,
            List.zipWith_cons_cons]
          cases returnedBlock X payload (receiver.inner.pushDatagram payload).1 with
          | none =>
              rw [List.reduceOption_cons_of_none, List.reduceOption_cons_of_none, hrest,
                returnedBlocks]
          | some piece =>
              rw [List.reduceOption_cons_of_some, List.reduceOption_cons_of_some, hrest,
                returnedBlocks]

/-- The frames that the pushes of a run return. -/
def returnedMediaFrames
    (outputs : List (Except FecTransportMediaError (Option DecodedMediaFrame))) :
    List DecodedMediaFrame :=
  outputs.filterMap fun output => output.toOption.join

/-- A receiver returns the frames that a plain decoder returns of its own payloads. -/
lemma returnedMediaFrames_run (receiver : FecDatagramDecoder X) (media : MediaFecDecoder X)
    (messages : List Bytes) :
    returnedMediaFrames (runOutputs receiver.pushMediaDatagram media messages)
      = returnedFrames (runOutputs MediaFecDecoder.pushDatagram media
          (messages.filterMap (payloadOf receiver.streamIdMode))) := by
  refine (serves_media_stream receiver).filterMap_outputs _ _ ?_ ?_ rfl fun _ _ => trivial
  · rintro _ result rfl
    cases result with
    | error error => rfl
    | ok returned => rfl
  · rintro media _ message - hnone
    obtain ⟨error, herror⟩ := payloadOf_eq_none.mp hnone
    rw [FecDatagramDecoder.pushMediaDatagram, herror]
    rfl

variable {messages : List Bytes} {push : Bytes × Except FecTransportError (Option Bytes)}

/-- The push of a message of another stream fails as taking off its stream id does. -/
lemma error_of_strip (receiver : FecDatagramDecoder X) (hmode : receiver.streamIdMode = mode)
    (hpush : push ∈ messages.zip (runOutputs FecDatagramDecoder.pushDatagram receiver messages))
    {error : FecTransportError} (hstrip : stripTransportPrefix mode push.1 = .error error) :
    push.2 = .error error := by
  refine forall_mem_zip _ (P := fun message out => stripTransportPrefix mode message = .error error →
    out = .error error) (fun receiver => receiver.streamIdMode = mode) (fun receiver message h => ?_)
    hmode messages push hpush hstrip
  subst h
  rw [FecDatagramDecoder.pushDatagram]
  cases stripTransportPrefix receiver.streamIdMode message with
  | error error' => exact ⟨fun herror => congrArg _ (Except.error.inj herror), rfl⟩
  | ok payload => exact ⟨fun herror => (by cases herror), rfl⟩

/-- The same for a message that should carry a media frame. -/
lemma media_error_of_strip (receiver : FecDatagramDecoder X) {media : MediaFecDecoder X}
    {push : Bytes × Except FecTransportMediaError (Option DecodedMediaFrame)}
    (hpush : push ∈ messages.zip (runOutputs receiver.pushMediaDatagram media messages))
    {error : FecTransportError}
    (hstrip : stripTransportPrefix receiver.streamIdMode push.1 = .error error) :
    push.2 = .error (.transport error) := by
  refine forall_mem_zip _
    (P := fun message out => stripTransportPrefix receiver.streamIdMode message = .error error →
      out = .error (.transport error)) (fun _ => True) (fun media message _ => ⟨fun herror => ?_,
      trivial⟩) trivial messages push hpush hstrip
  rw [FecDatagramDecoder.pushMediaDatagram, herror]

end Stream

/-! ## Many streams -/

/-- A call of `encode_payload` on a payload that is not empty. -/
def TransportsPayload (X : Crates) (sender : FecDatagramEncoder) (payload : Bytes)
    (result : Except DatagramFecError (List Bytes)) (sender' : FecDatagramEncoder) : Prop :=
  payload ≠ [] ∧ sender.encodePayload X payload = some (result, sender')

/-- A sender with a stream id, with the payloads it sends and their messages. -/
structure PayloadStream (X : Crates) where
  streamId : UInt64
  sender : FecDatagramEncoder
  payloads : List Bytes
  messages : List Bytes
  mode_eq : sender.streamIdMode = .prefix64Be streamId
  calls : AcceptedCalls (TransportsPayload X) sender payloads messages
  /-- No block id is used twice. -/
  few : (sender.inner.pieces payloads).length ≤ 2 ^ 32

section Streams

variable {X : Crates}

/-- The mode of an encoder does not change. -/
lemma transports_inner {mode : StreamIdMode} {payload : Bytes} {encoder encoder' : FecDatagramEncoder}
    {result : Except DatagramFecError (List Bytes)} (hmode : encoder.streamIdMode = mode)
    (h : TransportsPayload X encoder payload result encoder') :
    encoder'.streamIdMode = mode ∧ ∃ inner, EncodesPayload X encoder.inner payload inner
      encoder'.inner ∧ result = inner.map (List.map (addPrefix mode.idPrefix)) := by
  obtain ⟨hpayload, hcall⟩ := h
  obtain ⟨⟨inner, next, pool⟩, hinner, hresult⟩ := Option.map_eq_some_iff.mp hcall
  obtain ⟨rfl, rfl⟩ := Prod.mk.inj hresult
  exact ⟨hmode, inner, ⟨hpayload, none, pool, Or.inl hinner⟩, by rw [hmode]⟩

/-- The messages are the datagrams of the payloads behind the stream id. -/
lemma PayloadStream.sent (stream : PayloadStream X) :
    ∃ datagrams, AcceptedCalls (EncodesPayload X) stream.sender.inner stream.payloads datagrams ∧
      stream.messages
        = datagrams.map (addPrefix (StreamIdMode.prefix64Be stream.streamId).idPrefix) :=
  AcceptedCalls.inner (fun sender => sender.streamIdMode = .prefix64Be stream.streamId)
    FecDatagramEncoder.inner _ (fun _ _ _ _ => transports_inner) stream.mode_eq stream.calls

/-- A message of another stream is refused. -/
lemma PayloadStream.strip_other (other : PayloadStream X) {streamId : UInt64}
    (hne : other.streamId ≠ streamId) {message : Bytes} (h : message ∈ other.messages) :
    stripTransportPrefix (.prefix64Be streamId) message
      = .error (.unexpectedStreamId streamId other.streamId) := by
  obtain ⟨datagrams, -, hmessages⟩ := other.sent
  rw [hmessages] at h
  obtain ⟨datagram, -, rfl⟩ := List.mem_map.mp h
  exact stripTransportPrefix_other hne datagram

/-- **Every receiver recovers its own stream.**  Streams of distinct ids share a wire that loses,
repeats, reorders and interleaves their messages.  The receiver of a stream rejects every message of
another one, naming both ids, and accepts all of its own; as long as between two datagrams of a
block of the stream there arrives none of a block of the stream that does not retain it (`Uncut`),
it returns, each at most once, exactly those pieces of the payloads of this stream whose blocks have
decodable symbols among the messages that arrive. -/
theorem streams_recovered (code : X.Ideal) (streams : Set (PayloadStream X))
    (hids : ∀ stream ∈ streams, ∀ other ∈ streams, stream.streamId = other.streamId →
      stream = other)
    (arrivals : List Bytes) (harrivals : ∀ message ∈ arrivals, ∃ stream ∈ streams,
      message ∈ stream.messages)
    (stream : PayloadStream X) (hstream : stream ∈ streams)
    (huncut : Uncut X (arrivals.filterMap (payloadOf (.prefix64Be stream.streamId)))) :
    let mode := StreamIdMode.prefix64Be stream.streamId
    let outputs := runOutputs FecDatagramDecoder.pushDatagram
      (FecDatagramDecoder.webtransportWithStreamPrefix (X := X) stream.streamId) arrivals
    let survivors := survivingSymbols X (arrivals.filterMap (payloadOf mode))
    (∀ push ∈ arrivals.zip outputs,
      (push.1 ∈ stream.messages → ∃ returned, push.2 = .ok returned) ∧
      ∀ other ∈ streams, other ≠ stream → push.1 ∈ other.messages →
        push.2 = .error (.unexpectedStreamId stream.streamId other.streamId)) ∧
    ((returnedPieces X mode arrivals outputs).map Prod.fst).Nodup ∧
    ∀ id object, (id, object) ∈ returnedPieces X mode arrivals outputs ↔
      (∃ i, (stream.sender.inner.pieces stream.payloads)[i]? = some object ∧
        id = stream.sender.inner.blockId + UInt32.ofNat i) ∧
      (survivors id).Nonempty ∧
      code.Decodable object.length (max stream.sender.inner.config.symbolSize 1)
        (survivors id) := by
  intro mode outputs survivors
  obtain ⟨datagrams, hcalls, hmessages⟩ := stream.sent
  obtain ⟨blocks, hsent⟩ := sent_of_calls code.toSystematic hcalls
  have hothers : ∀ other ∈ streams, other ≠ stream → ∀ message ∈ other.messages,
      stripTransportPrefix mode message
        = .error (.unexpectedStreamId stream.streamId other.streamId) :=
    fun other hother hne message hmessage => other.strip_other
      (fun heq => hne (hids other hother stream hstream heq)) hmessage
  -- what the receiver takes off the wire are datagrams of its stream
  have hown : ∀ datagram ∈ arrivals.filterMap (payloadOf mode), datagram ∈ datagrams := by
    intro datagram hdatagram
    obtain ⟨message, hmessage, hpayload⟩ := List.mem_filterMap.mp hdatagram
    obtain ⟨other, hother, hmem⟩ := harrivals message hmessage
    by_cases hsame : other = stream
    · rw [hsame, hmessages] at hmem
      obtain ⟨sent, hsent, rfl⟩ := List.mem_map.mp hmem
      rw [payloadOf_addPrefix] at hpayload
      rwa [← Option.some.inj hpayload]
    · rw [payloadOf_eq_none.mpr ⟨_, hothers other hother hsame message hmem⟩] at hpayload
      cases hpayload
  obtain ⟨hok, hnodup, hreturned⟩ := hsent.returned code stream.few hown huncut
  have hpieces := returnedPieces_run
    (FecDatagramDecoder.webtransportWithStreamPrefix (X := X) stream.streamId) rfl arrivals
  change returnedPieces X mode arrivals outputs
    = returnedBlocks X _ (runOutputs _ DatagramFecDecoder.new _) at hpieces
  rw [hpieces]
  refine ⟨fun push hpush => ⟨fun hmine => ?_, fun other hother hne hmem => ?_⟩, hnodup, hreturned⟩
  · rw [hmessages] at hmine
    obtain ⟨datagram, -, hmessage⟩ := List.mem_map.mp hmine
    have hpayload : payloadOf mode push.1 = some datagram := by
      rw [← hmessage, payloadOf_addPrefix]
    have hall : ∀ message ∈ arrivals, True := fun _ _ => trivial
    obtain ⟨result, hresult, hout⟩ :=
      (serves_stream X mode).exists_of_own ⟨rfl, rfl⟩ hall hpush hpayload
    obtain ⟨returned, rfl⟩ := hok result (List.of_mem_zip hresult).2
    exact ⟨returned, hout⟩
  · exact error_of_strip _ rfl hpush (hothers other hother hne push.1 hmem)

end Streams

/-! ## Streams of media frames -/

/-- A sender with a stream id, with the frames it encodes and their messages. -/
structure MediaStream (X : Crates) where
  streamId : UInt64
  sender : FecDatagramEncoder
  mode_eq : sender.streamIdMode = .prefix64Be streamId
  E : Encodings X
  once : E.Once
  /-- No frame is encoded with a pool. -/
  plain : ∀ e ∈ E.encodings, e.pool = none
  transported : Encoding X → EncodedTransportMediaFrame
  sent : ∀ e ∈ E.encodings, sender.encodeMediaFrame X e.encoder e.frame
    = some (.ok (transported e), e.encoder')

section MediaStreams

variable {X : Crates}

/-- The messages are the datagrams of the encoding behind the stream id. -/
lemma MediaStream.datagrams_eq (stream : MediaStream X) {e : Encoding X}
    (he : e ∈ stream.E.encodings) : (stream.transported e).datagrams
      = e.encoded.datagrams.map (addPrefix (StreamIdMode.prefix64Be stream.streamId).idPrefix) := by
  have hsent := stream.sent e he
  have haccepted := e.accepted
  rw [stream.plain e he] at haccepted
  rw [FecDatagramEncoder.encodeMediaFrame, MediaFecEncoder.encodeFrame, haccepted] at hsent
  obtain ⟨hencoded, -⟩ := Prod.mk.inj (Option.some.inj hsent)
  rw [← Except.ok.inj hencoded, stream.mode_eq]

/-- **Every receiver recovers the frames of its own stream.**  Streams of distinct ids share a wire
that loses, repeats, reorders and interleaves the messages of their frames.  The receiver of a
stream rejects every message of another one, naming both ids.  As long as between two datagrams of a
block of the stream there arrives none of a block of the stream that does not retain it (`Uncut`),
it accepts those of its own frames that are not passed between two of their datagrams; such a frame
is returned exactly once if enough symbols of all its blocks arrive, and not at all otherwise. -/
theorem media_streams_recovered (code : X.Ideal) (streams : Set (MediaStream X))
    (hids : ∀ stream ∈ streams, ∀ other ∈ streams, stream.streamId = other.streamId →
      stream = other)
    (arrivals : List Bytes) (harrivals : ∀ message ∈ arrivals, ∃ stream ∈ streams,
      ∃ e ∈ stream.E.encodings, message ∈ (stream.transported e).datagrams)
    (stream : MediaStream X) (hstream : stream ∈ streams)
    (huncut : Uncut X (arrivals.filterMap (payloadOf (.prefix64Be stream.streamId))))
    (e : Encoding X) (he : e ∈ stream.E.encodings)
    (hunpassed : stream.E.Unpassed e
      (arrivals.filterMap (payloadOf (.prefix64Be stream.streamId)))) :
    let own := arrivals.filterMap (payloadOf (.prefix64Be stream.streamId))
    let receiver := FecDatagramDecoder.webtransportWithStreamPrefix (X := X) stream.streamId
    let outputs := runOutputs receiver.pushMediaDatagram MediaFecDecoder.new arrivals
    let returned := (returnedMediaFrames outputs).filter fun frame =>
      frame.metadata.key = e.frame.metadata.key
    (e.Recoverable code own → returned = [e.frame.decoded]) ∧
    (¬ e.Recoverable code own → returned = []) ∧
    ∀ push ∈ arrivals.zip outputs,
      (push.1 ∈ (stream.transported e).datagrams → ∃ result, push.2 = .ok result) ∧
      ∀ other ∈ streams, other ≠ stream →
        ∀ e' ∈ other.E.encodings, push.1 ∈ (other.transported e').datagrams →
        push.2 = .error (.transport (.unexpectedStreamId stream.streamId other.streamId)) := by
  intro own receiver outputs returned
  have hothers : ∀ other ∈ streams, other ≠ stream → ∀ e' ∈ other.E.encodings,
      ∀ message ∈ (other.transported e').datagrams,
        stripTransportPrefix (.prefix64Be stream.streamId) message
          = .error (.unexpectedStreamId stream.streamId other.streamId) := by
    intro other hother hne e' he' message hmessage
    rw [other.datagrams_eq he'] at hmessage
    obtain ⟨datagram, -, rfl⟩ := List.mem_map.mp hmessage
    exact stripTransportPrefix_other
      (fun heq => hne (hids other hother stream hstream heq)) datagram
  have hown : ∀ datagram ∈ own, ∃ e ∈ stream.E.encodings, datagram ∈ e.encoded.datagrams := by
    intro datagram hdatagram
    obtain ⟨message, hmessage, hpayload⟩ := List.mem_filterMap.mp hdatagram
    obtain ⟨other, hother, e', he', hmem⟩ := harrivals message hmessage
    by_cases hsame : other = stream
    · subst hsame
      rw [other.datagrams_eq he'] at hmem
      obtain ⟨sent, hsent, rfl⟩ := List.mem_map.mp hmem
      rw [payloadOf_addPrefix] at hpayload
      exact ⟨e', he', Option.some.inj hpayload ▸ hsent⟩
    · rw [payloadOf_eq_none.mpr ⟨_, hothers other hother hsame e' he' message hmem⟩] at hpayload
      cases hpayload
  obtain ⟨hall, hnone, hok⟩ := stream.E.frame_of_run code stream.once hown huncut he hunpassed
  have hreturned : returned = (returnedFrames (runOutputs MediaFecDecoder.pushDatagram
      (MediaFecDecoder.new (X := X)) own)).filter fun frame =>
        frame.metadata.key = e.frame.metadata.key :=
    congrArg (List.filter _) (returnedMediaFrames_run receiver MediaFecDecoder.new arrivals)
  rw [hreturned]
  refine ⟨hall, hnone, fun push hpush => ⟨fun hmine => ?_, fun other hother hne e' he' hmem => ?_⟩⟩
  · rw [stream.datagrams_eq he] at hmine
    obtain ⟨datagram, hdatagram, hmessage⟩ := List.mem_map.mp hmine
    have hpayload : payloadOf (.prefix64Be stream.streamId) push.1 = some datagram := by
      rw [← hmessage, payloadOf_addPrefix]
    have hevery : ∀ message ∈ arrivals, True := fun _ _ => trivial
    obtain ⟨result, hresult, hout⟩ :=
      (serves_media_stream receiver).exists_of_own rfl hevery hpush hpayload
    obtain ⟨frame, rfl⟩ := hok _ hresult hdatagram
    exact ⟨frame, hout⟩
  · exact media_error_of_strip receiver hpush (hothers other hother hne e' he' push.1 hmem)

end MediaStreams

/-- A sender of blocks of two bytes, with a repair symbol for each. -/
def sampleSender (streamId : UInt64) : FecDatagramEncoder :=
  ⟨⟨7, 9, ⟨2, 1, 1⟩⟩, .prefix64Be streamId⟩

def sampleMessages (streamId : UInt64) : List Bytes :=
  (((sampleSender streamId).encodePayload repetition [1, 2, 3]).bind
    fun result => result.1.toOption).getD []

/-- Three bytes on a stream. -/
def sampleStream (streamId : UInt64) (hok : ((sampleSender streamId).encodePayload repetition
    [1, 2, 3]).map (fun result => result.1.isOk) = some true) : PayloadStream repetition where
  streamId := streamId
  sender := sampleSender streamId
  payloads := [[1, 2, 3]]
  messages := sampleMessages streamId
  mode_eq := rfl
  calls := by
    obtain ⟨⟨result, sender'⟩, hcall, hresult⟩ := Option.map_eq_some_iff.mp hok
    cases result with
    | error error => cases hresult
    | ok messages =>
        have hmessages : sampleMessages streamId = messages := by rw [sampleMessages, hcall]; rfl
        rw [hmessages]
        exact List.append_nil messages ▸ .accepted ⟨by decide, hcall⟩ (.nil sender')
  few := by
    change (DatagramFecEncoder.pieces ⟨7, 9, ⟨2, 1, 1⟩⟩ [[1, 2, 3]]).length ≤ 2 ^ 32
    decide

/-- Two streams that number their blocks alike. -/
def sharedWire : List Bytes := pick (sampleMessages 1 ++ sampleMessages 2) [5, 4, 6, 2, 1, 7, 1]

theorem streams_recovered_two :
    (7, [1, 2]) ∈ returnedPieces repetition (.prefix64Be 1) sharedWire
      (runOutputs FecDatagramDecoder.pushDatagram
        (FecDatagramDecoder.webtransportWithStreamPrefix (X := repetition) 1) sharedWire) := by
  have hone : ((sampleSender 1).encodePayload repetition [1, 2, 3]).map
      (fun result => result.1.isOk) = some true := by decide +kernel
  have htwo : ((sampleSender 2).encodePayload repetition [1, 2, 3]).map
      (fun result => result.1.isOk) = some true := by decide +kernel
  have hown : blockIds repetition (sharedWire.filterMap (payloadOf (.prefix64Be 1)))
      = [8, 7, 7, 7] := by decide +kernel
  have hsurvive : survivingSymbols repetition (sharedWire.filterMap (payloadOf (.prefix64Be 1))) 7
      = {1, 2} := by decide +kernel
  obtain ⟨-, -, hiff⟩ := streams_recovered repetitionIdeal {sampleStream 1 hone, sampleStream 2 htwo}
    (by rintro _ (rfl | rfl) _ (rfl | rfl) heq <;> first | rfl | cases heq) sharedWire
    (fun message hmessage => by
      rcases List.mem_append.mp (mem_of_mem_pick message hmessage) with hmem | hmem
      · exact ⟨_, Or.inl rfl, hmem⟩
      · exact ⟨_, Or.inr rfl, hmem⟩)
    (sampleStream 1 hone) (Or.inl rfl)
    (uncut_of_retained hown (by decide))
  have hpiece : (DatagramFecEncoder.pieces ⟨7, 9, ⟨2, 1, 1⟩⟩ [[1, 2, 3]])[0]? = some [1, 2] := rfl
  refine (hiff _ _).mpr ⟨⟨0, hpiece, rfl⟩, ?_⟩
  change (survivingSymbols repetition (sharedWire.filterMap (payloadOf (.prefix64Be 1))) 7).Nonempty
    ∧ repetitionIdeal.Decodable 2 (max 1 1)
      (survivingSymbols repetition (sharedWire.filterMap (payloadOf (.prefix64Be 1))) 7)
  rw [hsurvive]
  refine ⟨⟨1, by decide⟩, fun i hi => ?_⟩
  have hi : i < 2 := hi
  obtain rfl | rfl : i = 0 ∨ i = 1 := by omega
  · exact ⟨2, by decide, rfl⟩
  · exact ⟨1, by decide, rfl⟩

/-- A stream with one encoding. -/
def oneStream (streamId : UInt64) (e : Encoding repetition) (hplain : e.pool = none) :
    MediaStream repetition where
  streamId := streamId
  sender := sampleSender streamId
  mode_eq := rfl
  E := oneEncoding e
  once := once_oneEncoding e
  plain := by
    rintro _ rfl
    exact hplain
  transported e :=
    { sequence := e.encoded.sequence
      fragmentCount := e.encoded.fragmentCount
      decision := e.encoded.decision
      blocks := e.encoded.blocks
      datagrams := e.encoded.datagrams.map
        (addPrefix (StreamIdMode.prefix64Be streamId).idPrefix) }
  sent := by
    rintro e rfl
    have haccepted := e.accepted
    rw [hplain] at haccepted
    rw [FecDatagramEncoder.encodeMediaFrame, MediaFecEncoder.encodeFrame, haccepted]
    rfl

/-- The datagrams of one frame as messages of two streams. -/
def sharedFrames : List Bytes :=
  [(2, 0), (1, 1), (2, 1), (1, 0), (1, 1)].map fun message : UInt64 × ℕ =>
    addPrefix (StreamIdMode.prefix64Be message.1).idPrefix
      (fiveBytes.datagram repetitionIdeal.toSystematic message.2 0)

theorem media_streams_recovered_two :
    (returnedMediaFrames (runOutputs
        (FecDatagramDecoder.webtransportWithStreamPrefix (X := repetition) 1).pushMediaDatagram
        MediaFecDecoder.new sharedFrames)).filter
        (fun frame => frame.metadata.key = (sampleFrame [1, 2, 3, 4, 5]).metadata.key)
      = [(sampleFrame [1, 2, 3, 4, 5]).decoded] := by
  obtain ⟨encoded, encoder', pool', haccepts, hsent⟩ := MediaFecEncoder.fixedFor_accepts
    repetitionIdeal.toSystematic fiveBytes 1 0 (by change MediaPriority.data ≠ .audio; decide)
    (by decide) (by decide) (by decide) rfl
  obtain ⟨e, hpool, hframe, hsent⟩ : ∃ e : Encoding repetition, e.pool = none ∧
      e.frame = sampleFrame [1, 2, 3, 4, 5] ∧
      fiveBytes.IsSent repetitionIdeal.toSystematic e.encoder e.frame e.encoded :=
    ⟨⟨_, encoder', _, encoded, none, pool', haccepts⟩, rfl, rfl, hsent⟩
  have hown : sharedFrames.filterMap (payloadOf (.prefix64Be 1)) = swapped := by decide +kernel
  rw [← hframe]
  refine (media_streams_recovered repetitionIdeal {oneStream 1 e hpool, oneStream 2 e hpool}
    (by rintro _ (rfl | rfl) _ (rfl | rfl) heq <;> first | rfl | cases heq) sharedFrames
    (fun message hmessage => ?_) (oneStream 1 e hpool) (Or.inl rfl) ?_ e rfl ?_).1 ?_
  · have hmem : ∀ i < 2, fiveBytes.datagram repetitionIdeal.toSystematic i 0
        ∈ e.encoded.datagrams := fun i hi => datagram_mem hsent hi
    obtain ⟨⟨streamId, i⟩, hin, rfl⟩ := List.mem_map.mp hmessage
    have hsmall : ∀ pair ∈ [((2 : UInt64), 0), (1, 1), (2, 1), (1, 0), (1, 1)],
        (pair.1 = 1 ∨ pair.1 = 2) ∧ pair.2 < 2 := by decide
    obtain ⟨hid, hi⟩ := hsmall _ hin
    rcases hid with hid | hid
    · obtain rfl : streamId = 1 := hid
      exact ⟨_, Or.inl rfl, e, rfl, List.mem_map_of_mem (hmem i hi)⟩
    · obtain rfl : streamId = 2 := hid
      exact ⟨_, Or.inr rfl, e, rfl, List.mem_map_of_mem (hmem i hi)⟩
  · exact hown ▸ uncut_swapped
  · exact unpassed_oneEncoding e _
  · change e.Recoverable repetitionIdeal (sharedFrames.filterMap (payloadOf (.prefix64Be 1)))
    rw [hown]
    exact recoverable_swapped hsent

end RaptorFec
