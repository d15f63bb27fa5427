import RaptorFec.Datagram.Independent
import RaptorFec.Datagram.Lossy
import RaptorFec.Library.Sending

/-!
# Over UDP

`UdpFecSender` sends to one target and stops at the first datagram that its socket refuses.
`UdpFecReceiver` takes the datagrams of all peers from one socket, into a buffer that cuts longer
ones off, and keeps a decoder for each peer.  A call of `recv_decoded` takes datagrams until it has
an object or an error to return.

* `UdpFecReceiver.receive`, `recvDecoded` — one datagram, and the loop over them;
* `serves_peer` — to each peer the receiver is a decoder of its own;
* `recvDecoded_recovered` — what the calls return of one sender, whatever other peers send.
-/

namespace RaptorFec

/-- `std::io::Error`: an error of the socket, or one of this crate with its error kind. -/
inductive IoError (ε : Type*) where
  | socket (error : ε)
  | invalidInput (error : DatagramFecError)
  | invalidData (error : DatagramFecError)
  deriving DecidableEq, Repr

/-! ## The sender -/

structure UdpFecSender (σ : Type*) (Peer : Type) where
  socket : σ
  target : Peer
  encoder : DatagramFecEncoder

section Sender

variable {σ ε : Type*} {Peer : Type} (X : Crates) (sendTo : σ → Bytes → Peer → Except ε Unit × σ)

namespace UdpFecSender

/-- What `bind` makes of a socket. -/
def bind (socket : σ) (target : Peer) : UdpFecSender σ Peer :=
  ⟨socket, target, DatagramFecEncoder.new⟩

variable (self : UdpFecSender σ Peer)

/-- The loop of `send` and `send_block` over the datagrams of an encoding call. -/
def sendEncoded : Except DatagramFecError (List Bytes) × DatagramFecEncoder →
    Except (IoError ε) Unit × UdpFecSender σ Peer
  | (.error error, encoder) => (.error (.invalidInput error), { self with encoder := encoder })
  | (.ok datagrams, encoder) =>
      let (result, socket) :=
        sendAll (fun socket datagram => sendTo socket datagram self.target) self.socket datagrams
      (result.mapError .socket, ⟨socket, self.target, encoder⟩)

/-- `send`, with the sender after the call. -/
def send (data : Bytes) : Option (Except (IoError ε) Unit × UdpFecSender σ Peer) :=
  (self.encoder.encodePayload X data none).map fun call =>
    self.sendEncoded sendTo (call.1, call.2.1)

/-- `send_block`, with the sender after the call. -/
def sendBlock (data : Bytes) : Option (Except (IoError ε) Unit × UdpFecSender σ Peer) :=
  (self.encoder.encodeBlock X data none).map fun call => self.sendEncoded sendTo (call.1, call.2.1)

/-- The datagrams that the socket takes of those of an encoding call. -/
def takenOf (call : Option EncodeResult) : List Bytes :=
  match call with
  | some (.ok datagrams, _) =>
      taken (fun socket datagram => sendTo socket datagram self.target) self.socket datagrams
  | _ => []

end UdpFecSender

/-- A call of `send` or `send_block` on data that are not empty, with the datagrams that the socket
takes. -/
def SendsData (sender : UdpFecSender σ Peer) (data : Bytes) (result : Except (IoError ε) Unit)
    (took : List Bytes) (sender' : UdpFecSender σ Peer) : Prop :=
  data ≠ [] ∧
    (sender.send X sendTo data = some (result, sender') ∧
        took = sender.takenOf sendTo (sender.encoder.encodePayload X data none) ∨
      sender.sendBlock X sendTo data = some (result, sender') ∧
        took = sender.takenOf sendTo (sender.encoder.encodeBlock X data none))

/-- The data were encoded, whether or not the socket took all datagrams. -/
def wasEncoded : Except (IoError ε) Unit → Bool
  | .error (.invalidInput _) => false
  | _ => true

variable {X sendTo} {sender sender' : UdpFecSender σ Peer} {data : Bytes}
  {result : Except (IoError ε) Unit} {took : List Bytes}

/-- The loop sends a prefix of what was encoded. -/
lemma sendEncoded_cases {call : Option EncodeResult}
    (h : (call.map fun call => sender.sendEncoded sendTo (call.1, call.2.1))
      = some (result, sender')) :
    ∃ encoded pool, call = some (encoded, sender'.encoder, pool) ∧
      ((∃ error, encoded = .error error ∧ wasEncoded result = false ∧
        sender.takenOf sendTo call = []) ∨
      ∃ datagrams, encoded = .ok datagrams ∧ wasEncoded result = true ∧
        sender.takenOf sendTo call <+: datagrams) := by
  obtain ⟨⟨encoded, encoder, pool⟩, rfl, hresult⟩ := Option.map_eq_some_iff.mp h
  cases encoded with
  | error error =>
      obtain ⟨rfl, rfl⟩ := Prod.mk.inj hresult
      exact ⟨_, pool, rfl, Or.inl ⟨error, rfl, rfl, rfl⟩⟩
  | ok datagrams =>
      obtain ⟨rfl, rfl⟩ := Prod.mk.inj hresult
      refine ⟨_, pool, rfl, Or.inr ⟨datagrams, rfl, ?_, taken_prefix _ _ _⟩⟩
      rcases sendAll_cases (fun socket datagram => sendTo socket datagram sender.target)
        sender.socket datagrams with ⟨hall, -⟩ | ⟨_, _, _, -, -, hall⟩
      · rw [hall]
        rfl
      · rw [hall]
        rfl

/-- A call, seen by the encoder. -/
lemma encodes_of_sendsData (h : SendsData X sendTo sender data result took sender') :
    (∃ error, EncodesPayload X sender.encoder data (.error error) sender'.encoder ∧
      wasEncoded result = false ∧ took = []) ∨
    ∃ datagrams, EncodesPayload X sender.encoder data (.ok datagrams) sender'.encoder ∧
      wasEncoded result = true ∧ took <+: datagrams := by
  obtain ⟨hdata, ⟨hcall, rfl⟩ | ⟨hcall, rfl⟩⟩ := h
  · obtain ⟨encoded, pool, hencode,
        ⟨error, rfl, hresult, htook⟩ | ⟨datagrams, rfl, hresult, htook⟩⟩ :=
      sendEncoded_cases hcall
    · exact Or.inl ⟨error, ⟨hdata, none, pool, Or.inl hencode⟩, hresult, htook⟩
    · exact Or.inr ⟨datagrams, ⟨hdata, none, pool, Or.inl hencode⟩, hresult, htook⟩
  · obtain ⟨encoded, pool, hencode,
        ⟨error, rfl, hresult, htook⟩ | ⟨datagrams, rfl, hresult, htook⟩⟩ :=
      sendEncoded_cases hcall
    · exact Or.inl ⟨error, ⟨hdata, none, pool, Or.inr hencode⟩, hresult, htook⟩
    · exact Or.inr ⟨datagrams, ⟨hdata, none, pool, Or.inr hencode⟩, hresult, htook⟩

end Sender

/-! ## The receiver -/

structure UdpFecReceiver (X : Crates) (Peer : Type) where
  decoders : HashMap Peer (DatagramFecDecoder X)

/-- The length of the receive buffer. -/
def recvBufferLen : ℕ := 65536

section Receiver

variable {X : Crates} {Peer : Type} [DecidableEq Peer] {ε : Type*}

namespace UdpFecReceiver

/-- What `bind` makes of a socket. -/
def bind : UdpFecReceiver X Peer := ⟨∅⟩

variable (self : UdpFecReceiver X Peer)

/-- The decoder of a peer, as `entry(peer).or_default()` finds it. -/
def decoderOf (peer : Peer) : DatagramFecDecoder X :=
  (self.decoders.lookup peer).getD DatagramFecDecoder.new

/-- What `recv_decoded` does with the result of a push: it returns, or goes on with its loop. -/
def outcome (peer : Peer) : Except DatagramFecError (Option Bytes) →
    Option (Except (IoError ε) (Peer × Bytes))
  | .ok (some decoded) => some (.ok (peer, decoded))
  | .ok none => none
  | .error error => some (.error (.invalidData error))

/-- The body of the loop of `recv_decoded`, for what `recv_from` returns: a datagram and its sender,
or an error of the socket. -/
def receive (event : Except ε (Peer × Bytes)) :
    Option (Except (IoError ε) (Peer × Bytes)) × UdpFecReceiver X Peer :=
  match event with
  | .error error => (some (.error (.socket error)), self)
  | .ok (peer, datagram) =>
      let (result, decoder) := (self.decoderOf peer).pushDatagram (datagram.take recvBufferLen)
      (outcome peer result, ⟨self.decoders.insert peer decoder⟩)

/-- `recv_decoded`, with the receiver and what is left to receive after the call. -/
def recvDecoded (events : List (Except ε (Peer × Bytes))) :
    Option (Except (IoError ε) (Peer × Bytes)) × UdpFecReceiver X Peer ×
      List (Except ε (Peer × Bytes)) :=
  awaitOutput receive self events

/-- What successive calls of `recv_decoded` return. -/
def recvAll (calls : ℕ) (events : List (Except ε (Peer × Bytes))) :
    List (Except (IoError ε) (Peer × Bytes)) :=
  awaitAll receive calls self events

end UdpFecReceiver

/-- What the receiver reads of a peer. -/
def readFrom (peer : Peer) (event : Except ε (Peer × Bytes)) : Option Bytes :=
  event.toOption.bind fun received =>
    if received.1 = peer then some (received.2.take recvBufferLen) else none

/-- The object of a peer that a call returned. -/
def decodedFrom (peer : Peer) (result : Except (IoError ε) (Peer × Bytes)) : Option Bytes :=
  result.toOption.bind fun decoded => if decoded.1 = peer then some decoded.2 else none

variable {peer : Peer} {datagram : Bytes} {event : Except ε (Peer × Bytes)}

lemma readFrom_eq_some : readFrom peer event = some datagram ↔
    ∃ sent, event = .ok (peer, sent) ∧ datagram = sent.take recvBufferLen := by
  rcases event with error | ⟨other, sent⟩
  · simp [readFrom, Except.toOption]
  · simp [readFrom, Except.toOption, and_comm, eq_comm]

lemma decoderOf_insert (receiver : UdpFecReceiver X Peer) (peer other : Peer)
    (decoder : DatagramFecDecoder X) :
    (⟨receiver.decoders.insert peer decoder⟩ : UdpFecReceiver X Peer).decoderOf other
      = if other = peer then decoder else receiver.decoderOf other := by
  rw [UdpFecReceiver.decoderOf, HashMap.lookup_insert_eq]
  split_ifs
  · rfl
  · rfl

/-- **To each peer the receiver is a decoder of its own**: the datagrams of others and the errors of
the socket leave it alone. -/
lemma serves_peer (X : Crates) (peer : Peer) :
    Serves (UdpFecReceiver.receive (X := X) (ε := ε)) DatagramFecDecoder.pushDatagram (readFrom peer)
      (fun output result => output = UdpFecReceiver.outcome peer result)
      (fun receiver decoder => receiver.decoderOf peer = decoder) (fun _ => True) where
  mine := by
    rintro receiver _ event datagram rfl - hread
    obtain ⟨sent, rfl, rfl⟩ := readFrom_eq_some.mp hread
    refine ⟨rfl, ?_⟩
    rw [UdpFecReceiver.receive, decoderOf_insert, if_pos rfl]
  others := by
    rintro receiver _ (error | ⟨other, sent⟩) rfl - hread
    · rfl
    · have hne : peer ≠ other := by
        rintro rfl
        cases hread.symm.trans (readFrom_eq_some.mpr ⟨sent, rfl, rfl⟩)
      rw [UdpFecReceiver.receive, decoderOf_insert, if_neg hne]

lemma receive_fst (receiver : UdpFecReceiver X Peer) (other : Peer) (sent : Bytes) :
    (receiver.receive (.ok (other, sent) : Except ε (Peer × Bytes))).1
      = UdpFecReceiver.outcome other
          ((receiver.decoderOf other).pushDatagram (sent.take recvBufferLen)).1 := rfl

lemma bind_outcome (other peer : Peer) (result : Except DatagramFecError (Option Bytes)) :
    (UdpFecReceiver.outcome (ε := ε) other result).bind (decodedFrom peer)
      = if other = peer then result.toOption.join else none := by
  rcases result with error | - | decoded
  · exact (ite_self _).symm
  · exact (ite_self _).symm
  · rfl

/-- A call fails with the socket, or with the decoder of a peer. -/
lemma receive_error {receiver : UdpFecReceiver X Peer} {failure : IoError ε}
    (h : (receiver.receive event).1 = some (.error failure)) :
    (∃ error, event = .error error ∧ failure = .socket error) ∨
    ∃ other sent error, event = .ok (other, sent) ∧ failure = .invalidData error := by
  rcases event with error | ⟨other, sent⟩
  · exact Or.inl ⟨error, rfl, (Except.error.inj (Option.some.inj h)).symm⟩
  · rw [receive_fst] at h
    generalize ((receiver.decoderOf other).pushDatagram (sent.take recvBufferLen)).1 = result at h
    rcases result with error | - | object
    · exact Or.inr ⟨other, sent, error, rfl, (Except.error.inj (Option.some.inj h)).symm⟩
    · cases h
    · cases h

/-- The objects of a peer are what its decoder returns. -/
lemma decodedFrom_run (receiver : UdpFecReceiver X Peer) (peer : Peer)
    (events : List (Except ε (Peer × Bytes))) :
    (runOutputs UdpFecReceiver.receive receiver events).reduceOption.filterMap (decodedFrom peer)
      = (runOutputs DatagramFecDecoder.pushDatagram (receiver.decoderOf peer)
          (events.filterMap (readFrom peer))).filterMap fun result => result.toOption.join := by
  have hrun : (runOutputs UdpFecReceiver.receive receiver events).filterMap
      (fun output => output.bind (decodedFrom peer)) = _ :=
    (serves_peer (ε := ε) X peer).filterMap_outputs _ (fun result => result.toOption.join) ?_ ?_ rfl
      fun _ _ => trivial
  · rw [← hrun, List.reduceOption, List.filterMap_filterMap]
    rfl
  · rintro _ result rfl
    rw [bind_outcome, if_pos rfl]
  · rintro receiver _ (error | ⟨other, sent⟩) - hread
    · rfl
    · have hne : other ≠ peer := by
        rintro rfl
        cases hread.symm.trans (readFrom_eq_some.mpr ⟨sent, rfl, rfl⟩)
      rw [receive_fst, bind_outcome, if_neg hne]

/-- A decoder that returns an object of a datagram read its block id. -/
lemma snd_returnedBlocks (decoder : DatagramFecDecoder X) (datagrams : List Bytes) :
    (returnedBlocks X datagrams
        (runOutputs DatagramFecDecoder.pushDatagram decoder datagrams)).map Prod.snd
      = (runOutputs DatagramFecDecoder.pushDatagram decoder datagrams).filterMap
          fun result => result.toOption.join := by
  induction datagrams generalizing decoder with
  | nil => rfl
  | cons datagram datagrams ih =>
      have hone : (returnedBlock X datagram (decoder.pushDatagram datagram).1).map Prod.snd
          = (decoder.pushDatagram datagram).1.toOption.join := by
        rcases DatagramFecDecoder.rejected_or_opens X datagram with
          ⟨header, packet, hopens⟩ | ⟨error, hreject⟩
        · have hid := about_of_opens hopens
          rw [FecOp.about] at hid
          obtain ⟨symbol, hsymbol, -⟩ := Option.map_eq_some_iff.mp hid
          rw [returnedBlock, hsymbol]
          rcases (decoder.pushDatagram datagram).1 with error | - | object
          · rfl
          · rfl
          · rfl
        · rw [hreject decoder, returnedBlock]
          cases wireSymbol X datagram with
          | none => rfl
          | some symbol => rfl
      rw [runOutputs_cons, returnedBlocks, List.zipWith_cons_cons, List.filterMap_cons, ← hone]
      have hrest := ih (decoder.pushDatagram datagram).2
      rw [returnedBlocks] at hrest
      cases returnedBlock X datagram (decoder.pushDatagram datagram).1 with
      | none => rw [List.reduceOption_cons_of_none, hrest]; rfl
      | some piece => rw [List.reduceOption_cons_of_some, List.map_cons, hrest]; rfl

end Receiver

/-! ## One sender among others -/

section Recovered

variable {X : Crates}

/-- Every datagram that is sent of some pieces has the size of one symbol. -/
lemma PiecesSent.length_eq {code : X.Systematic} {encoder : DatagramFecEncoder}
    {pieces datagrams : List Bytes} {blocks : List SourceBlock}
    (h : PiecesSent code encoder pieces datagrams blocks) {datagram : Bytes}
    (hdatagram : datagram ∈ datagrams) :
    datagram.length = datagramSizeForSymbolSize (max encoder.config.symbolSize 1) := by
  have hemit : ∀ (blocks : List SourceBlock) (sequence : UInt32),
      (∀ block ∈ blocks, block.symbolSize = max encoder.config.symbolSize 1) →
      ∀ datagram ∈ (emitBlocks code encoder.config.repairSymbols.toNat blocks sequence).flatten,
        datagram.length = datagramSizeForSymbolSize (max encoder.config.symbolSize 1) := by
    intro blocks
    induction blocks with
    | nil => simp [emitBlocks]
    | cons block blocks ih =>
        intro sequence hsizes datagram hmem
        rw [List.forall_mem_cons] at hsizes
        rw [emitBlocks, List.flatten_cons, List.mem_append] at hmem
        rcases hmem with hmem | hmem
        · obtain ⟨esi, -, rfl⟩ := List.mem_map.mp hmem
          rw [length_datagram, hsizes.1]
        · exact ih _ hsizes.2 datagram hmem
  exact hemit blocks _ h.sizes datagram (h.emitted ▸ hdatagram)

variable {σ ε : Type*} {Peer : Type} [DecidableEq Peer]
  {sendTo : σ → Bytes → Peer → Except ε Unit × σ}
  {sender : UdpFecSender σ Peer}

/-- **What `recv_decoded` returns of one sender.**  A sender makes calls of `send` and `send_block`,
each of which may be refused by the encoder or cut short by its socket; its datagrams fit the
receive buffer.  A receiver gets some of what the socket took, in any order and any number of times,
among whatever other peers send it and errors of its own socket.  Then its calls return of this
sender, each at most once, exactly those pieces of the accepted data whose blocks have decodable
symbols among the datagrams that arrive, as long as between two datagrams of a block there arrives
none of a block that does not retain it (`Uncut`); and every error that a call returns is one of the
socket or due to a datagram of another peer. -/
theorem recvDecoded_recovered (code : X.Ideal) {requests : List Bytes}
    {results : List (Except (IoError ε) Unit)} {took : List Bytes}
    (hrun : SendRun (SendsData X sendTo) sender requests results took)
    (hfew : (sender.encoder.pieces (acceptedRequests wasEncoded requests results)).length ≤ 2 ^ 32)
    (hfits : datagramSizeForSymbolSize (max sender.encoder.config.symbolSize 1) ≤ recvBufferLen)
    (peer : Peer) (events : List (Except ε (Peer × Bytes)))
    (harrivals : ∀ datagram, .ok (peer, datagram) ∈ events → datagram ∈ took)
    (huncut : Uncut X (events.filterMap (readFrom peer)))
    (calls : ℕ) (hcalls : events.length ≤ calls) :
    let outcomes := UdpFecReceiver.recvAll (X := X) UdpFecReceiver.bind calls events
    let survivors := survivingSymbols X (events.filterMap (readFrom peer))
    (∃ returned : List (UInt32 × Bytes),
      outcomes.filterMap (decodedFrom peer) = returned.map Prod.snd ∧
      (returned.map Prod.fst).Nodup ∧
      ∀ id object, (id, object) ∈ returned ↔
        (∃ i, (sender.encoder.pieces (acceptedRequests wasEncoded requests results))[i]?
            = some object ∧ id = sender.encoder.blockId + UInt32.ofNat i) ∧
        (survivors id).Nonempty ∧
        code.Decodable object.length (max sender.encoder.config.symbolSize 1) (survivors id)) ∧
    ∀ failure, .error failure ∈ outcomes →
      (∃ error, failure = .socket error ∧ .error error ∈ events) ∨
      ∃ error other datagram, failure = .invalidData error ∧ other ≠ peer ∧
        .ok (other, datagram) ∈ events := by
  intro outcomes survivors
  obtain ⟨datagrams, hencoded, htook⟩ := hrun.calls UdpFecSender.encoder wasEncoded
    fun _ _ _ _ _ => encodes_of_sendsData
  obtain ⟨blocks, hsent⟩ := sent_of_calls code.toSystematic hencoded
  -- the receive buffer cuts nothing off
  have hown : ∀ datagram ∈ events.filterMap (readFrom peer), datagram ∈ datagrams := by
    intro datagram hdatagram
    obtain ⟨event, hevent, hread⟩ := List.mem_filterMap.mp hdatagram
    obtain ⟨sent, rfl, rfl⟩ := readFrom_eq_some.mp hread
    have hmem := htook.subset (harrivals sent hevent)
    rwa [List.take_of_length_le ((hsent.length_eq hmem).trans_le hfits)]
  obtain ⟨hok, hnodup, hreturned⟩ := hsent.returned code hfew hown huncut
  have houtcomes : outcomes = (runOutputs UdpFecReceiver.receive UdpFecReceiver.bind
      events).reduceOption := awaitAll_of_le hcalls
  refine ⟨⟨_, ?_, hnodup, hreturned⟩, fun failure hfailure => ?_⟩
  · rw [houtcomes, decodedFrom_run, snd_returnedBlocks]
    rfl
  · rw [houtcomes, List.reduceOption_mem_iff] at hfailure
    obtain ⟨i, hi, houtput⟩ := List.mem_iff_getElem.mp hfailure
    have hi' : i < events.length := by rwa [← length_runOutputs _ _ events]
    have hpair : (events[i], some (.error failure)) ∈ events.zip
        (runOutputs UdpFecReceiver.receive (UdpFecReceiver.bind : UdpFecReceiver X Peer) events) :=
      List.mem_iff_getElem.mpr ⟨i, by rw [List.length_zip]; omega, by rw [List.getElem_zip, houtput]⟩
    have hanswer := forall_mem_zip UdpFecReceiver.receive
      (P := fun event output => ∃ receiver : UdpFecReceiver X Peer,
        (receiver.receive event).1 = output) (fun _ => True)
      (fun receiver event _ => ⟨⟨receiver, rfl⟩, trivial⟩) trivial events _ hpair
    obtain ⟨receiver, hanswer⟩ := hanswer
    have hevent := List.getElem_mem hi'
    rcases receive_error hanswer with ⟨error, hcase, rfl⟩ | ⟨other, sent, error, hcase, rfl⟩
    · exact Or.inl ⟨error, rfl, hcase ▸ hevent⟩
    · refine Or.inr ⟨error, other, sent, rfl, ?_, hcase ▸ hevent⟩
      -- the decoder of the sender reports no error
      rintro rfl
      have hread : readFrom other events[i] = some (sent.take recvBufferLen) :=
        readFrom_eq_some.mpr ⟨sent, hcase, rfl⟩
      obtain ⟨result, hresult, hout⟩ := (serves_peer (ε := ε) X other).exists_of_own rfl
        (fun _ _ => trivial) hpair hread
      obtain ⟨returned, rfl⟩ := hok result (List.of_mem_zip hresult).2
      cases returned with
      | none => cases hout
      | some object => cases hout

end Recovered

/-- A socket that takes every datagram and counts them. -/
def countingSocket : ℕ → Bytes → ℕ → Except Unit Unit × ℕ := fun count _ _ => (.ok (), count + 1)

/-- Blocks of two bytes, with a repair symbol for each. -/
def sampleUdpSender : UdpFecSender ℕ ℕ := ⟨0, 1, ⟨7, 9, ⟨2, 1, 1⟩⟩⟩

def sampleTaken : List Bytes :=
  sampleUdpSender.takenOf countingSocket
    (sampleUdpSender.encoder.encodePayload repetition [1, 2, 3] none)

/-- A datagram of peer 2, an error, and some datagrams of the sender, which is peer 5. -/
def sampleEvents : List (Except Unit (ℕ × Bytes)) :=
  [.ok (2, [1, 2]), .error ()] ++ (pick sampleTaken [4, 2, 1, 1]).map fun datagram =>
    .ok (5, datagram)

theorem recvDecoded_recovered_two :
    [1, 2] ∈ ((UdpFecReceiver.bind : UdpFecReceiver repetition ℕ).recvAll 6 sampleEvents).filterMap
      (decodedFrom 5) := by
  have hsends : (sampleUdpSender.send repetition countingSocket [1, 2, 3]).map
      (fun call => call.1) = some (.ok ()) := by decide +kernel
  obtain ⟨⟨result, sender'⟩, hcall, rfl⟩ := Option.map_eq_some_iff.mp hsends
  have hids : blockIds repetition (sampleEvents.filterMap (readFrom 5)) = [8, 7, 7, 7] := by
    decide +kernel
  have hsurvive : survivingSymbols repetition (sampleEvents.filterMap (readFrom 5)) 7
      = {1, 2} := by decide +kernel
  have harrivals : ∀ datagram, .ok (5, datagram) ∈ sampleEvents → datagram ∈ sampleTaken ++ [] := by
    intro datagram hdatagram
    rcases List.mem_append.mp hdatagram with hother | hmine
    · simp at hother
    · obtain ⟨sent, hsent, heq⟩ := List.mem_map.mp hmine
      obtain rfl := (Prod.mk.inj (Except.ok.inj heq)).2
      exact List.mem_append_left _ (mem_of_mem_pick sent hsent)
  obtain ⟨⟨returned, hreturned, -, hiff⟩, -⟩ := recvDecoded_recovered repetitionIdeal
    (.cons ⟨by decide, Or.inl ⟨hcall, rfl⟩⟩ (.nil sender')) (by decide) (by decide) 5 sampleEvents
    harrivals (uncut_of_retained hids (by decide)) 6 (by decide +kernel)
  rw [hreturned]
  refine List.mem_map.mpr ⟨(7, [1, 2]), (hiff _ _).mpr ⟨⟨0, rfl, rfl⟩, ?_⟩, rfl⟩
  rw [hsurvive]
  refine ⟨⟨1, by decide⟩, fun i hi => ?_⟩
  have hi : i < 2 := hi
  obtain rfl | rfl : i = 0 ∨ i = 1 := by omega
  · exact ⟨2, by decide, rfl⟩
  · exact ⟨1, by decide, rfl⟩

end RaptorFec
