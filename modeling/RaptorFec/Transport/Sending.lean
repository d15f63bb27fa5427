import RaptorFec.Library.Sending
import RaptorFec.Transport.Streams

/-!
# Sending over a link that may fail

`DatagramSender` is a link that may refuse a message.  The senders of this crate stop at the first
refusal: the messages in front of it are on their way, the others are not sent.

* `FecDatagramSender` — payloads, one call after the other.  A call that stops half-way has used up
  its block ids, so what was sent of it stays apart from all later calls;
* `sendFec_recovered` — what a receiver makes of the messages that the link took;
* `sendEpoch` — an audio epoch, source messages first;
* `sendEpoch_recovered` — what was sent, what the call reports, and what a receiver has when the
  link fails behind the source messages.
-/

namespace RaptorFec

/-! ## Payloads -/

inductive FecSendError (ε : Type*) where
  | fec (error : DatagramFecError)
  | transport (error : ε)
  deriving DecidableEq, Repr

structure FecDatagramSender (σ : Type*) where
  inner : σ
  encoder : FecDatagramEncoder

namespace FecDatagramSender

variable {σ ε : Type*}

def new (inner : σ) (config : FecTransportConfig) : FecDatagramSender σ :=
  ⟨inner, FecDatagramEncoder.new config⟩

variable (X : Crates) (send : σ → Bytes → Except ε Unit × σ) (self : FecDatagramSender σ)

/-- `send_fec`, with the sender after the call. -/
def sendFec (payload : Bytes) : Option (Except (FecSendError ε) ℕ × FecDatagramSender σ) :=
  (self.encoder.encodePayload X payload).map fun
    | (.error error, encoder) => (.error (.fec error), { self with encoder := encoder })
    | (.ok datagrams, encoder) =>
        let (result, inner) := sendAll send self.inner datagrams
        ((result.mapError .transport).map fun _ => datagrams.length, ⟨inner, encoder⟩)

/-- The messages that the link takes in a call of `send_fec`. -/
def takenBy (payload : Bytes) : List Bytes :=
  match self.encoder.encodePayload X payload with
  | some (.ok datagrams, _) => taken send self.inner datagrams
  | _ => []

end FecDatagramSender

section Payloads

variable {σ ε : Type*} {X : Crates} {send : σ → Bytes → Except ε Unit × σ}
  {sender sender' : FecDatagramSender σ} {payload : Bytes}

variable (X send) in
/-- A call of `send_fec` on a payload that is not empty. -/
def SendsPayload (sender : FecDatagramSender σ) (payload : Bytes)
    (result : Except (FecSendError ε) ℕ) (took : List Bytes) (sender' : FecDatagramSender σ) :
    Prop :=
  payload ≠ [] ∧ sender.sendFec X send payload = some (result, sender') ∧
    took = sender.takenBy X send payload

/-- The call did not end with an encoding error. -/
def encoded : Except (FecSendError ε) ℕ → Bool
  | .error (.fec _) => false
  | _ => true

/-- One call: the encoder refuses the payload and nothing is sent; or it accepts it, and the link
takes all messages or those in front of the one it refuses. -/
lemma sendFec_cases {result : Except (FecSendError ε) ℕ}
    (h : sender.sendFec X send payload = some (result, sender')) :
    (∃ error, sender.encoder.encodePayload X payload = some (.error error, sender'.encoder) ∧
      result = .error (.fec error) ∧ sender.takenBy X send payload = []) ∨
    ∃ messages, sender.encoder.encodePayload X payload = some (.ok messages, sender'.encoder) ∧
      sender.takenBy X send payload <+: messages ∧
      (result = .ok messages.length ∧ sender.takenBy X send payload = messages ∨
        (∃ error, result = .error (.transport error)) ∧
          sender.takenBy X send payload ≠ messages) := by
  rw [FecDatagramSender.sendFec] at h
  obtain ⟨⟨encoded, encoder⟩, hencode, hresult⟩ := Option.map_eq_some_iff.mp h
  rw [FecDatagramSender.takenBy, hencode]
  cases encoded with
  | error error =>
      obtain ⟨rfl, rfl⟩ := Prod.mk.inj hresult
      exact Or.inl ⟨error, rfl, rfl, rfl⟩
  | ok messages =>
      obtain ⟨rfl, rfl⟩ := Prod.mk.inj hresult
      refine Or.inr ⟨messages, rfl, taken_prefix send sender.inner messages, ?_⟩
      rcases sendAll_cases send sender.inner messages with ⟨hall, hsame⟩ |
        ⟨failed, behind, error, hsplit, -, hall⟩
      · rw [hall]
        exact Or.inl ⟨rfl, hsame⟩
      · rw [hall]
        refine Or.inr ⟨⟨error, rfl⟩, fun hsame => ?_⟩
        replace hsame : taken send sender.inner messages = messages := hsame
        have hlength := congrArg List.length hsplit
        rw [hsame, List.length_append, List.length_cons] at hlength
        omega

/-- A call, seen by the encoder. -/
lemma encodes_of_sends {result : Except (FecSendError ε) ℕ} {took : List Bytes}
    (h : SendsPayload X send sender payload result took sender') :
    (∃ error, TransportsPayload X sender.encoder payload (.error error) sender'.encoder ∧
      encoded result = false ∧ took = []) ∨
    ∃ messages, TransportsPayload X sender.encoder payload (.ok messages) sender'.encoder ∧
      encoded result = true ∧ took <+: messages := by
  obtain ⟨hpayload, hcall, rfl⟩ := h
  rcases sendFec_cases hcall with ⟨error, hencode, rfl, hnone⟩ | ⟨messages, hencode, htook, hresult⟩
  · exact Or.inl ⟨error, ⟨hpayload, hencode⟩, rfl, hnone⟩
  · refine Or.inr ⟨messages, ⟨hpayload, hencode⟩, ?_, htook⟩
    rcases hresult with ⟨rfl, -⟩ | ⟨⟨error, rfl⟩, -⟩
    · rfl
    · rfl

/-- **What arrives of payloads that are sent over a failing link.**  Payloads that are not empty are
sent by successive calls of `send_fec`, each of which may be refused by the encoder or cut short by
the link.  What the link took reaches a receiver with the mode of the sender, over a path that may
lose, repeat and reorder it as long as between two datagrams of a block there arrives none of a
block that does not retain it (`Uncut`).  The receiver reports no error and returns, each at most
once, exactly those pieces of the accepted payloads whose blocks have decodable symbols among the
messages that arrive. -/
theorem sendFec_recovered (code : X.Ideal) {payloads : List Bytes}
    {results : List (Except (FecSendError ε) ℕ)} {took : List Bytes}
    (hrun : SendRun (SendsPayload X send) sender payloads results took)
    (hfew : (sender.encoder.inner.pieces (acceptedRequests encoded payloads results)).length
      ≤ 2 ^ 32)
    (config : FecTransportConfig) (hmode : sender.encoder.streamIdMode = config.streamIdMode)
    (arrivals : List Bytes) (harrivals : ∀ message ∈ arrivals, message ∈ took)
    (huncut : Uncut X (arrivals.filterMap (payloadOf config.streamIdMode))) :
    let outputs := runOutputs FecDatagramDecoder.pushDatagram
      (FecDatagramDecoder.new (X := X) config) arrivals
    let returned := returnedPieces X config.streamIdMode arrivals outputs
    let survivors := survivingSymbols X (arrivals.filterMap (payloadOf config.streamIdMode))
    (∀ output ∈ outputs, ∃ returned, output = .ok returned) ∧
    (returned.map Prod.fst).Nodup ∧
    ∀ id object, (id, object) ∈ returned ↔
      (∃ i, (sender.encoder.inner.pieces (acceptedRequests encoded payloads results))[i]?
          = some object ∧ id = sender.encoder.inner.blockId + UInt32.ofNat i) ∧
      (survivors id).Nonempty ∧
      code.Decodable object.length (max sender.encoder.inner.config.symbolSize 1)
        (survivors id) := by
  intro outputs returned survivors
  obtain ⟨messages, hcalls, htook⟩ := hrun.calls FecDatagramSender.encoder encoded
    fun _ _ _ _ _ => encodes_of_sends
  obtain ⟨datagrams, hinner, hmessages⟩ := AcceptedCalls.inner
    (fun encoder => encoder.streamIdMode = config.streamIdMode) FecDatagramEncoder.inner _
    (fun _ _ _ _ => transports_inner) hmode hcalls
  obtain ⟨blocks, hsent⟩ := sent_of_calls code.toSystematic hinner
  -- every message that arrives carries a datagram of an accepted payload
  have hpayload : ∀ message ∈ arrivals, ∃ datagram ∈ datagrams,
      payloadOf config.streamIdMode message = some datagram := by
    intro message hmessage
    have hmem := htook.subset (harrivals message hmessage)
    rw [hmessages] at hmem
    obtain ⟨datagram, hdatagram, rfl⟩ := List.mem_map.mp hmem
    exact ⟨datagram, hdatagram, payloadOf_addPrefix _ _⟩
  have hown : ∀ datagram ∈ arrivals.filterMap (payloadOf config.streamIdMode),
      datagram ∈ datagrams := by
    intro datagram hdatagram
    obtain ⟨message, hmessage, hsome⟩ := List.mem_filterMap.mp hdatagram
    obtain ⟨sent, hin, hsome'⟩ := hpayload message hmessage
    rwa [← Option.some.inj (hsome'.symm.trans hsome)]
  obtain ⟨hok, hnodup, hreturned⟩ := hsent.returned code hfew hown huncut
  have hpieces : returned = returnedBlocks X _ (runOutputs _ DatagramFecDecoder.new _) :=
    returnedPieces_run (FecDatagramDecoder.new (X := X) config) rfl arrivals
  rw [hpieces]
  refine ⟨fun output houtput => ?_, hnodup, hreturned⟩
  obtain ⟨i, hi, rfl⟩ := List.mem_iff_getElem.mp houtput
  have hi' : i < arrivals.length := by rwa [← length_runOutputs _ _ arrivals]
  have hpush : (arrivals[i], outputs[i]) ∈ arrivals.zip outputs :=
    List.mem_iff_getElem.mpr ⟨i, by rw [List.length_zip]; omega, List.getElem_zip⟩
  obtain ⟨datagram, -, hsome⟩ := hpayload arrivals[i] (List.getElem_mem hi')
  have hall : ∀ message ∈ arrivals, True := fun _ _ => trivial
  obtain ⟨result, hresult, hout⟩ :=
    (serves_stream X config.streamIdMode).exists_of_own ⟨rfl, rfl⟩ hall hpush hsome
  obtain ⟨piece, rfl⟩ := hok result (List.of_mem_zip hresult).2
  exact ⟨piece, hout⟩

end Payloads

/-- A link that takes a number of messages and refuses all others. -/
def budgetLink : ℕ → Bytes → Except Unit Unit × ℕ
  | 0, _ => (.error (), 0)
  | n + 1, _ => (.ok (), n)

lemma length_taken_budgetLink (n : ℕ) (messages : List Bytes) :
    (taken budgetLink n messages).length = min n messages.length := by
  induction messages generalizing n with
  | nil => simp [taken]
  | cons message messages ih =>
      cases n with
      | zero => simp [taken, budgetLink]
      | succ n =>
          rw [taken, budgetLink, List.length_cons, List.length_cons, ih]
          omega

/-- What a link takes that refuses the last message of two blocks, in reverse order. -/
def shortWire : List Bytes :=
  ((⟨4, sampleSender 1⟩ : FecDatagramSender ℕ).takenBy repetition budgetLink [1, 2, 3]).reverse

theorem sendFec_recovered_short :
    (7, [1, 2]) ∈ returnedPieces repetition (.prefix64Be 1) shortWire
      (runOutputs FecDatagramDecoder.pushDatagram
        (FecDatagramDecoder.new (X := repetition) (.webtransportWithStreamPrefix 1)) shortWire) := by
  have hfails : ((⟨4, sampleSender 1⟩ : FecDatagramSender ℕ).sendFec repetition budgetLink
      [1, 2, 3]).map (fun call => call.1) = some (.error (.transport ())) := by decide +kernel
  obtain ⟨⟨result, sender'⟩, hcall, rfl⟩ := Option.map_eq_some_iff.mp hfails
  have hown : blockIds repetition (shortWire.filterMap (payloadOf (.prefix64Be 1)))
      = [8, 7, 7, 7] := by decide +kernel
  have hsurvive : survivingSymbols repetition (shortWire.filterMap (payloadOf (.prefix64Be 1))) 7
      = {0, 1, 2} := by decide +kernel
  have hpiece : (DatagramFecEncoder.pieces ⟨7, 9, ⟨2, 1, 1⟩⟩ [[1, 2, 3]])[0]? = some [1, 2] := rfl
  obtain ⟨-, -, hiff⟩ := sendFec_recovered repetitionIdeal
    (.cons ⟨by decide, hcall, rfl⟩ (.nil sender')) (by decide) (.webtransportWithStreamPrefix 1) rfl
    shortWire (fun message hmessage => List.mem_append_left _ (List.mem_reverse.mp hmessage))
    (uncut_of_retained hown (by decide))
  refine (hiff _ _).mpr ⟨⟨0, hpiece, rfl⟩, ?_⟩
  change (survivingSymbols repetition (shortWire.filterMap (payloadOf (.prefix64Be 1))) 7).Nonempty
    ∧ repetitionIdeal.Decodable 2 (max 1 1)
      (survivingSymbols repetition (shortWire.filterMap (payloadOf (.prefix64Be 1))) 7)
  rw [hsurvive]
  refine ⟨⟨1, by decide⟩, fun i hi => ⟨i, ?_, ?_⟩⟩
  · have hi : i < 2 := hi
    obtain rfl | rfl : i = 0 ∨ i = 1 := by omega
    · decide
    · decide
  · exact Nat.mod_eq_of_lt hi

/-! ## Audio epochs -/

structure MultichannelAudioSendReport where
  sourceDatagrams : ℕ
  repairDatagrams : ℕ
  deriving DecidableEq, Repr

inductive MultichannelAudioSendError (ε : Type*) where
  | adapter (error : MultichannelAudioTransportError)
  | transport (error : ε)
  deriving DecidableEq, Repr

/-- A datagram is counted by its role. -/
def MultichannelAudioSendReport.count (report : MultichannelAudioSendReport)
    (role : MultichannelAudioDatagramRole) : MultichannelAudioSendReport :=
  match role with
  | .source _ => { report with sourceDatagrams := report.sourceDatagrams + 1 }
  | .repair _ => { report with repairDatagrams := report.repairDatagrams + 1 }

namespace MultichannelAudioTransportAdapter

variable {σ ε : Type*} (send : σ → Bytes → Except ε Unit × σ)

/-- The loop of `send_epoch`. -/
def sendDatagrams : σ → List MultichannelAudioTransportDatagram → MultichannelAudioSendReport →
    Except (MultichannelAudioSendError ε) MultichannelAudioSendReport × σ
  | link, [], report => (.ok report, link)
  | link, datagram :: datagrams, report =>
      match send link datagram.payload with
      | (.error error, link) => (.error (.transport error), link)
      | (.ok (), link) => sendDatagrams link datagrams (report.count datagram.role)

/-- `send_epoch`, with the link after the call. -/
def sendEpoch (adapter : MultichannelAudioTransportAdapter) (link : σ)
    (encoded : EncodedMultichannelAudioEpoch) :
    Except (MultichannelAudioSendError ε) MultichannelAudioSendReport × σ :=
  match adapter.wrapEpoch encoded with
  | .error error => (.error (.adapter error), link)
  | .ok encoded => sendDatagrams send link encoded.datagrams ⟨0, 0⟩

variable {send} {adapter : MultichannelAudioTransportAdapter}

/-- The loop sends the payloads and counts what it sent. -/
lemma sendDatagrams_eq (link : σ) (datagrams : List MultichannelAudioTransportDatagram)
    (report : MultichannelAudioSendReport) :
    sendDatagrams send link datagrams report
      = let (result, link) := sendAll send link (datagrams.map (·.payload))
        ((result.mapError .transport).map fun _ =>
          datagrams.foldl (fun report datagram => report.count datagram.role) report, link) := by
  induction datagrams generalizing link report with
  | nil => rfl
  | cons datagram datagrams ih =>
      rw [sendDatagrams, List.map_cons]
      cases hsend : send link datagram.payload with
      | mk result next =>
          cases result with
          | error error =>
              rw [(sendAll_cons_error _ (congrArg Prod.fst hsend)).1, hsend]
              rfl
          | ok done =>
              rw [(sendAll_cons_ok _ (congrArg Prod.fst hsend)).1, hsend]
              exact ih next _

lemma foldl_count (datagrams : List MultichannelAudioTransportDatagram)
    (report : MultichannelAudioSendReport) :
    datagrams.foldl (fun report datagram => report.count datagram.role) report
      = ⟨report.sourceDatagrams + datagrams.countP (·.role.isSource),
          report.repairDatagrams + datagrams.countP (fun datagram => ! datagram.role.isSource)⟩ := by
  induction datagrams generalizing report with
  | nil => rfl
  | cons datagram datagrams ih =>
      rw [List.foldl_cons, ih, List.countP_cons, List.countP_cons]
      cases hrole : datagram.role with
      | source index =>
          simp only [MultichannelAudioSendReport.count, MultichannelAudioDatagramRole.isSource]
          simp
          omega
      | repair esi =>
          simp only [MultichannelAudioSendReport.count, MultichannelAudioDatagramRole.isSource]
          simp
          omega

/-! ### The receiver of an epoch -/

/-- What the pushes of messages deliver. -/
def receivedShards {X : Crates} (adapter : MultichannelAudioTransportAdapter)
    (decoder : MultichannelAudioFecDecoder X) (messages : List Bytes) :
    List DecodedMultichannelAudioShard :=
  (runOutputs adapter.pushDatagram decoder messages).flatMap fun result => result.toOption.getD []

section Receiver

variable {X : Crates} {decoder : MultichannelAudioFecDecoder X}

/-- Messages that frame datagrams do what the datagrams do. -/
lemma runOutputs_frame (datagrams : List Bytes) :
    runOutputs adapter.pushDatagram decoder (datagrams.map adapter.frame)
      = (runOutputs MultichannelAudioFecDecoder.pushDatagram decoder datagrams).map
          fun result => result.mapError .audio := by
  induction datagrams generalizing decoder with
  | nil => rfl
  | cons datagram datagrams ih =>
      rw [List.map_cons, runOutputs_cons, pushDatagram_frame, ih, runOutputs_cons, List.map_cons]

lemma receivedShards_frame (datagrams : List Bytes) :
    adapter.receivedShards decoder (datagrams.map adapter.frame)
      = decoder.pushedShards datagrams := by
  rw [receivedShards, runOutputs_frame, List.flatMap_map, MultichannelAudioFecDecoder.pushedShards]
  refine List.flatMap_congr fun result _ => ?_
  cases result with
  | error error => rfl
  | ok shards => rfl

/-- The datagram of a source symbol delivers its shard, unless this was delivered before. -/
lemma delivered_of_mem {code : X.Ideal} {block : AudioBlock} {datagrams : List Bytes}
    (h : ∀ datagram ∈ datagrams,
      MultichannelAudioFecDecoder.IsDatagramOf code.toSystematic block datagram)
    {sequence : UInt32} {esi : ℕ} {datagram : Bytes} (hmem : datagram ∈ datagrams)
    (hcarries : Carries code.toSystematic block.toSourceBlock sequence esi datagram)
    (hesi : esi < block.sourceSymbols) :
    UInt16.ofNat esi ∈ ((MultichannelAudioFecDecoder.new :
      MultichannelAudioFecDecoder X).pushedShards datagrams).map (·.index) := by
  induction datagrams using List.reverseRecOn with
  | nil => cases hmem
  | append_singleton datagrams last ih =>
      have hpast : ∀ datagram ∈ datagrams,
          MultichannelAudioFecDecoder.IsDatagramOf code.toSystematic block datagram :=
        fun d hd => h d (List.mem_append_left _ hd)
      rw [MultichannelAudioFecDecoder.pushedShards_snoc, List.map_append, List.mem_append]
      by_cases hold : UInt16.ofNat esi ∈ ((MultichannelAudioFecDecoder.new :
          MultichannelAudioFecDecoder X).pushedShards datagrams).map (·.index)
      · exact Or.inl hold
      · rcases List.mem_append.mp hmem with hmem | hmem
        · exact absurd (ih hpast hmem) hold
        · obtain rfl := List.mem_singleton.mp hmem
          obtain ⟨shard, hshard, hindex⟩ :=
            (MultichannelAudioFecDecoder.epochRun code block hpast).1.delivers hcarries hesi hold
          exact Or.inr (List.mem_map.mpr ⟨shard, hshard, hindex⟩)

end Receiver

/-! ### An epoch over a failing link -/

section Epoch

variable {X : Crates} {config : MultichannelAudioFecConfig}
  {encoder encoder' : MultichannelAudioFecEncoder} {epoch : MultichannelAudioEpoch}
  {encoded : EncodedMultichannelAudioEpoch}

/-- The messages of an epoch, in the order they are sent. -/
def messagesOf (adapter : MultichannelAudioTransportAdapter)
    (encoded : EncodedMultichannelAudioEpoch) : List Bytes :=
  encoded.datagrams.map fun datagram => adapter.frame datagram.payload

/-- The datagrams of a transmission, counted by their roles. -/
lemma foldl_count_packets (code : X.Systematic) (T : AudioTransmission) (ptsSamples : UInt64) :
    (((List.range T.emitted).map (T.packet code)).map (adapter.wrap ptsSamples)).foldl
        (fun (report : MultichannelAudioSendReport) datagram => report.count datagram.role)
        (⟨0, 0⟩ : MultichannelAudioSendReport)
      = ⟨T.block.sourceSymbols, T.repair⟩ := by
  have hsources : ∀ datagram ∈ (T.sourcePackets code).map (adapter.wrap ptsSamples),
      datagram.role.isSource = true := by
    intro datagram hdatagram
    obtain ⟨packet, hpacket, rfl⟩ := List.mem_map.mp hdatagram
    exact T.isSource_sourcePackets hpacket
  have hrepairs : ∀ datagram ∈ (T.repairPackets code).map (adapter.wrap ptsSamples),
      datagram.role.isSource = false := by
    intro datagram hdatagram
    obtain ⟨packet, hpacket, rfl⟩ := List.mem_map.mp hdatagram
    exact T.isSource_repairPackets hpacket
  rw [foldl_count, T.packets_eq, List.map_append, List.countP_append, List.countP_append,
    List.countP_eq_length.mpr hsources,
    List.countP_eq_zero.mpr fun d hd => by rw [hrepairs d hd]; exact Bool.false_ne_true,
    List.countP_eq_zero.mpr fun d hd => by rw [hsources d hd]; exact Bool.false_ne_true,
    List.countP_eq_length.mpr fun d hd => by rw [hrepairs d hd]; rfl]
  simp [AudioTransmission.sourcePackets, AudioTransmission.repairPackets]

/-- The epochs of a prepared encoder are sent message by message. -/
lemma sendEpoch_eq (code : X.Systematic) {T : AudioTransmission}
    (hencode : (encoder.setConfig (adapter.prepareFecConfig config)).encodeEpoch X epoch
      = some (.ok encoded, encoder'))
    (hdatagrams : encoded.datagrams = (List.range T.emitted).map (T.packet code)) (link : σ) :
    adapter.sendEpoch send link encoded
      = let (result, link) := sendAll send link (adapter.messagesOf encoded)
        ((result.mapError .transport).map fun _ => ⟨T.block.sourceSymbols, T.repair⟩, link) := by
  have hfits : ∀ datagram ∈ encoded.datagrams,
      (adapter.frame datagram.payload).length ≤ adapter.maxDatagramSize := by
    intro packet hpacket
    obtain ⟨datagram, hloop⟩ := (encodeEpoch_packets hencode).2 packet hpacket
    rw [length_frame]
    exact packetOf_within hloop
  have hfirst : SourceFirst encoded.datagrams := by
    rw [hdatagrams]
    exact sourceFirst_packets T
  rw [sendEpoch, wrapEpoch_eq_ok_iff.mpr ⟨hfirst, hfits, rfl⟩]
  change sendDatagrams send link (encoded.datagrams.map (adapter.wrap encoded.ptsSamples)) ⟨0, 0⟩
    = _
  rw [sendDatagrams_eq, messagesOf, hdatagrams, foldl_count_packets, List.map_map]
  rfl

variable (send) in
/-- What the call reports: everything was sent, or the link failed. -/
lemma report_of_taken (code : X.Systematic) {T : AudioTransmission}
    (hencode : (encoder.setConfig (adapter.prepareFecConfig config)).encodeEpoch X epoch
      = some (.ok encoded, encoder'))
    (hdatagrams : encoded.datagrams = (List.range T.emitted).map (T.packet code)) (link : σ) :
    (taken send link (adapter.messagesOf encoded) = adapter.messagesOf encoded →
      (adapter.sendEpoch send link encoded).1 = .ok ⟨T.block.sourceSymbols, T.repair⟩) ∧
    (taken send link (adapter.messagesOf encoded) ≠ adapter.messagesOf encoded →
      ∃ refused behind error,
        adapter.messagesOf encoded
          = taken send link (adapter.messagesOf encoded) ++ refused :: behind ∧
        (send (runState send link (taken send link (adapter.messagesOf encoded))) refused).1
          = .error error ∧
        (adapter.sendEpoch send link encoded).1 = .error (.transport error)) := by
  rw [sendEpoch_eq code hencode hdatagrams]
  rcases sendAll_cases send link (adapter.messagesOf encoded) with ⟨hall, hsame⟩ |
    ⟨refused, behind, error, hsplit, hrefused, hall⟩
  · rw [hall]
    exact ⟨fun _ => rfl, fun hne => absurd hsame hne⟩
  · rw [hall]
    refine ⟨fun hsame => ?_, fun _ => ⟨refused, behind, error, hsplit, hrefused, rfl⟩⟩
    have hlength := congrArg List.length hsplit
    rw [hsame, List.length_append, List.length_cons] at hlength
    omega

/-- Messages of an epoch frame datagrams of its block. -/
lemma exists_framed {code : X.Systematic} {T : AudioTransmission} {arrivals : List Bytes}
    (h : ∀ message ∈ arrivals, message ∈ ((List.range T.emitted).map (T.datagram code)).map
      adapter.frame) :
    ∃ datagrams : List Bytes,
      (∀ datagram ∈ datagrams, MultichannelAudioFecDecoder.IsDatagramOf code T.block datagram) ∧
        arrivals = datagrams.map adapter.frame := by
  induction arrivals with
  | nil => exact ⟨[], by simp, rfl⟩
  | cons message arrivals ih =>
      rw [List.forall_mem_cons] at h
      obtain ⟨datagram, hdatagram, rfl⟩ := List.mem_map.mp h.1
      obtain ⟨esi, hesi, rfl⟩ := List.mem_map.mp hdatagram
      obtain ⟨datagrams, hdatagrams, rfl⟩ := ih h.2
      refine ⟨T.datagram code esi :: datagrams, ?_, rfl⟩
      rw [List.forall_mem_cons]
      exact ⟨⟨_, esi, AudioTransmission.carries (List.mem_range.mp hesi)⟩, hdatagrams⟩

lemma frame_injective : Function.Injective adapter.frame := fun datagram datagram' h => by
  have hpayload := payload_frame adapter datagram
  rw [h, payload_frame] at hpayload
  exact (Except.ok.inj hpayload).symm

/-- **An epoch over a failing link.**  An epoch of a prepared encoder is sent, source messages
first.  The link takes all messages, and the report counts them; or it takes those in front of the
one it refuses, and the call returns the error it refuses this one with.  Whatever a receiver gets
of the messages that the link took, in any order and any number of times, it accepts; the shards it
delivers have distinct source indices, and each has the header and the bytes the encoder wrote; and
once the link has taken all source messages and they all arrive, every shard is delivered. -/
theorem sendEpoch_recovered (code : X.Ideal)
    (hencode : (encoder.setConfig (adapter.prepareFecConfig config)).encodeEpoch X epoch
      = some (.ok encoded, encoder'))
    (send : σ → Bytes → Except ε Unit × σ) (link : σ) :
    let messages := adapter.messagesOf encoded
    let took := taken send link messages
    let result := (adapter.sendEpoch send link encoded).1
    took <+: messages ∧
    (took = messages →
      result = .ok ⟨encoded.sourceSymbols.toNat, encoded.repairSymbols.toNat⟩) ∧
    (took ≠ messages → ∃ refused behind error, messages = took ++ refused :: behind ∧
      (send (runState send link took) refused).1 = .error error ∧
      result = .error (.transport error)) ∧
    ∃ geometry, (adapter.prepareFecConfig config).geometryForGroups epoch.groups = .ok geometry ∧
      let cut : EpochCut := ⟨epoch, geometry⟩
      ∀ arrivals : List Bytes, (∀ message ∈ arrivals, message ∈ took) →
        let output := adapter.receivedShards (MultichannelAudioFecDecoder.new (X := X)) arrivals
        (∀ result ∈ runOutputs adapter.pushDatagram (MultichannelAudioFecDecoder.new (X := X))
          arrivals, ∃ delivered, result = .ok delivered) ∧
        (output.map (·.index)).Nodup ∧
        (∀ shard ∈ output, ∃ i < cut.count, shard.index = UInt16.ofNat i ∧
          shard.header = cut.headerAt i ∧ shard.payload = cut.payloadAt i) ∧
        (encoded.sourceSymbols.toNat ≤ took.length → (∀ message ∈ took, message ∈ arrivals) →
          ∀ i < cut.count, UInt16.ofNat i ∈ output.map (·.index)) := by
  intro messages took result
  obtain ⟨T, hsent⟩ := encodeEpoch_ok code.toSystematic hencode
  obtain ⟨geometry, hgeometry, hcount, hheader, hpayload⟩ := hsent.cut
  have hfront : took <+: messages := taken_prefix send link messages
  have hrepairs : T.repair = encoded.repairSymbols.toNat := by
    rw [hsent.repair_eq, (encodeEpoch_packets hencode).1]
  have hreport := report_of_taken send code.toSystematic hencode hsent.datagrams_eq link
  rw [hrepairs, ← hsent.sourceSymbols_eq] at hreport
  refine ⟨hfront, hreport.1, hreport.2, geometry, hgeometry, ?_⟩
  intro cut arrivals harrivals output
  have hmessages : messages = ((List.range T.emitted).map (T.datagram code.toSystematic)).map
      adapter.frame := by
    change encoded.datagrams.map _ = _
    rw [hsent.datagrams_eq, List.map_map, List.map_map]
    rfl
  obtain ⟨datagrams, hdatagrams, hframes⟩ := exists_framed fun message hmessage =>
    hmessages ▸ hfront.subset (harrivals message hmessage)
  obtain ⟨hrun, hok⟩ := MultichannelAudioFecDecoder.epochRun code T.block hdatagrams
  have houtput : output = (MultichannelAudioFecDecoder.new (X := X)).pushedShards datagrams := by
    change adapter.receivedShards _ arrivals = _
    rw [hframes, receivedShards_frame]
  rw [houtput, hframes, runOutputs_frame]
  refine ⟨fun result hresult => ?_, hrun.nodup, fun shard hshard => ?_, fun htook hall i hi => ?_⟩
  · obtain ⟨result, hin, rfl⟩ := List.mem_map.mp hresult
    obtain ⟨delivered, rfl⟩ := hok result hin
    exact ⟨delivered, rfl⟩
  · obtain ⟨i, hi, recovery, rfl⟩ := hrun.shards shard hshard
    exact ⟨i, hcount ▸ hi, AudioBlock.index_shard hi recovery, congrFun hheader i,
      congrFun hpayload i⟩
  · -- the link has taken the message of every source symbol, and it arrives
    have hi : i < T.block.sourceSymbols := hcount ▸ hi
    rw [hsent.sourceSymbols_eq] at htook
    have hemitted : i < T.emitted := Nat.lt_of_lt_of_le hi (Nat.le_add_right _ _)
    have hmessage : adapter.frame (T.datagram code.toSystematic i) ∈ took := by
      rw [List.prefix_iff_eq_take.mp hfront, hmessages]
      refine List.mem_iff_getElem.mpr ⟨i, ?_, by simp⟩
      rw [List.length_take, List.length_map, List.length_map, List.length_range]
      omega
    obtain ⟨datagram, hin, hframe⟩ := List.mem_map.mp (hall _ hmessage)
    rw [frame_injective hframe] at hin
    exact delivered_of_mem hdatagrams hin (AudioTransmission.carries hemitted) hi

end Epoch

open MultichannelAudioFecDecoder (sampleEpoch sampleEncoder)

/-- The link refuses the second of four repair messages; what it took arrives in reverse order. -/
theorem sendEpoch_recovered_short :
    ∃ encoded encoder', (sampleEncoder.setConfig
        (sampleAdapter.prepareFecConfig .default)).encodeEpoch repetition sampleEpoch
          = some (.ok encoded, encoder') ∧
      let took := taken budgetLink 3 (sampleAdapter.messagesOf encoded)
      (∃ refused behind error, sampleAdapter.messagesOf encoded = took ++ refused :: behind ∧
        (budgetLink (runState budgetLink 3 took) refused).1 = .error error ∧
        (sampleAdapter.sendEpoch budgetLink 3 encoded).1 = .error (.transport error)) ∧
      ∃ geometry, (sampleAdapter.prepareFecConfig .default).geometryForGroups sampleEpoch.groups
          = .ok geometry ∧
        ∀ i < EpochCut.count ⟨sampleEpoch, geometry⟩, UInt16.ofNat i ∈
          (sampleAdapter.receivedShards (MultichannelAudioFecDecoder.new (X := repetition))
            took.reverse).map (·.index) := by
  have hok : ((sampleEncoder.setConfig
      (sampleAdapter.prepareFecConfig .default)).encodeEpoch repetition sampleEpoch).map
        (fun result => result.1.toOption.map fun encoded =>
          (encoded.sourceSymbols.toNat, encoded.datagrams.length)) = some (some (2, 6)) := by
    decide +kernel
  obtain ⟨⟨result, encoder'⟩, hencode, hresult⟩ := Option.map_eq_some_iff.mp hok
  cases result with
  | error error => cases hresult
  | ok encoded =>
      obtain ⟨hsources, hcount⟩ := Prod.mk.inj (Option.some.inj hresult)
      have hlength : (sampleAdapter.messagesOf encoded).length = 6 :=
        (List.length_map _).trans hcount
      obtain ⟨-, -, hfails, geometry, hgeometry, hreceiver⟩ :=
        sendEpoch_recovered repetitionIdeal hencode budgetLink 3
      obtain ⟨-, -, -, hall⟩ := hreceiver _ fun message hmessage => List.mem_reverse.mp hmessage
      refine ⟨encoded, encoder', hencode, hfails fun hsame => ?_, geometry, hgeometry,
        hall ?_ fun message hmessage => List.mem_reverse.mpr hmessage⟩
      · have htaken := length_taken_budgetLink 3 (sampleAdapter.messagesOf encoded)
        rw [hsame, hlength] at htaken
        cases htaken
      · rw [hsources, length_taken_budgetLink, hlength]
        decide

end MultichannelAudioTransportAdapter

end RaptorFec
