import AutomotiveGateway.DoIp.Replies

/-!
# Short and refused sends

The client socket does not block. What `send` takes of a message is taken for the whole
of it, so a message that was cut off is followed by the start of the next one as soon as
the socket has room again.
-/

namespace AutomotiveGateway.DoIp

/-- What the socket answers to `send`: the number of bytes it has room for, or an error
with its `errno`, such as `EAGAIN`. -/
inductive SendResult
  | sent (count : Nat)
  | error (errno : Nat)
deriving DecidableEq, Repr

/-- The number of bytes taken of a message of some size. -/
def SendResult.count : SendResult → Nat → Nat
  | sent count, size => min count size
  | error _, _ => 0

/-- A part of the message is taken, but not all of it. -/
def SendResult.IsShort (result : SendResult) (size : Nat) : Prop :=
  0 < result.count size ∧ result.count size < size

/-- `send_to_client`: the bytes that reach the socket. The result is only looked at for
an error, and that is only logged. -/
def sendToClient (result : SendResult) (data : List UInt8) : List UInt8 :=
  data.take (result.count data.length)

/-- The messages of a run, each with the piece of it that the socket takes when its sends
return the given results. -/
def sendAll (results : Nat → SendResult) (messages : List (List UInt8)) :
    List (List UInt8 × List UInt8) :=
  messages.zipIdx.map fun step => (step.1, sendToClient (results step.2) step.1)

/-- The bytes taken by the socket. -/
def acceptedBytes (writes : List (List UInt8 × List UInt8)) : List UInt8 :=
  (writes.map Prod.snd).flatten

/-- After any number of sends, the bytes taken begin a stream of built messages, and no
message is cut off and followed by the start of another one. -/
structure OutputIntact (writes : List (List UInt8 × List UInt8)) : Prop where
  whole : ∀ n, ∃ messages : List (UInt16 × List UInt8),
    (∀ message ∈ messages, message.2.length < 4294967296) ∧
      acceptedBytes (writes.take n) <+: makeStream messages
  uncut : ∀ (i j : Nat) (cut later : List UInt8 × List UInt8), i < j →
    writes[i]? = some cut → writes[j]? = some later → cut.2 ≠ [] → cut.2 ≠ cut.1 → later.2 = []

/-- After a short send the socket takes nothing of any later message. -/
def StopsAfterShortSend (results : Nat → SendResult) (messages : List (List UInt8)) : Prop :=
  ∀ (i j : Nat) (message later : List UInt8), i < j →
    messages[i]? = some message → messages[j]? = some later →
    (results i).IsShort message.length → (results j).count later.length = 0

/-! ## Pieces of messages -/

theorem SendResult.count_le (result : SendResult) (size : Nat) : result.count size ≤ size := by
  cases result with
  | sent count => exact Nat.min_le_right count size
  | error errno => exact Nat.zero_le size

theorem length_sendToClient (result : SendResult) (data : List UInt8) :
    (sendToClient result data).length = result.count data.length := by
  rw [sendToClient, List.length_take]
  exact Nat.min_eq_left (result.count_le data.length)

theorem sendToClient_eq_nil_iff {result : SendResult} {data : List UInt8} :
    sendToClient result data = [] ↔ result.count data.length = 0 := by
  rw [← List.length_eq_zero_iff, length_sendToClient]

theorem sendToClient_eq_self_iff {result : SendResult} {data : List UInt8} :
    sendToClient result data = data ↔ result.count data.length = data.length := by
  constructor
  · intro heq
    rw [← length_sendToClient, heq]
  · intro hcount
    rw [sendToClient, hcount, List.take_length]

theorem isShort_iff {result : SendResult} {data : List UInt8} :
    result.IsShort data.length ↔
      sendToClient result data ≠ [] ∧ sendToClient result data ≠ data := by
  have hle := result.count_le data.length
  rw [SendResult.IsShort, ne_eq, ne_eq, sendToClient_eq_nil_iff, sendToClient_eq_self_iff]
  omega

theorem getElem?_sendAll (results : Nat → SendResult) (messages : List (List UInt8)) (i : Nat) :
    (sendAll results messages)[i]? =
      messages[i]?.map fun message => (message, sendToClient (results i) message) := by
  simp [sendAll, Function.comp_def]

theorem map_fst_sendAll (results : Nat → SendResult) (messages : List (List UInt8)) :
    (sendAll results messages).map Prod.fst = messages := by
  rw [sendAll, List.map_map]
  exact List.zipIdx_map_fst 0 messages

/-- Nothing is taken behind a cut message exactly when nothing is taken after a short
send. -/
theorem uncut_sendAll_iff {results : Nat → SendResult} {messages : List (List UInt8)} :
    (∀ (i j : Nat) (cut later : List UInt8 × List UInt8), i < j →
      (sendAll results messages)[i]? = some cut → (sendAll results messages)[j]? = some later →
      cut.2 ≠ [] → cut.2 ≠ cut.1 → later.2 = []) ↔
      StopsAfterShortSend results messages := by
  constructor
  · intro huncut i j message later hlt hmessage hlater hshort
    have hpieces := isShort_iff.mp hshort
    have hnone := huncut i j (message, sendToClient (results i) message)
      (later, sendToClient (results j) later) hlt
      (by rw [getElem?_sendAll, hmessage, Option.map_some])
      (by rw [getElem?_sendAll, hlater, Option.map_some]) hpieces.1 hpieces.2
    exact sendToClient_eq_nil_iff.mp hnone
  · intro hstops i j cut later hlt hcut hlater hnonempty hpart
    rw [getElem?_sendAll, Option.map_eq_some_iff] at hcut hlater
    obtain ⟨message, hmessage, rfl⟩ := hcut
    obtain ⟨next, hnext, rfl⟩ := hlater
    exact sendToClient_eq_nil_iff.mpr
      (hstops i j message next hlt hmessage hnext (isShort_iff.mpr ⟨hnonempty, hpart⟩))

/-- Built messages of which nothing is taken behind a short send leave an intact output. -/
theorem outputIntact_of_stops {replies : List (UInt16 × List UInt8)}
    (hsize : ∀ reply ∈ replies, reply.2.length < 4294967296) {results : Nat → SendResult}
    (hstops : StopsAfterShortSend results
      (replies.map fun reply => makeDoipMessage reply.1 reply.2)) :
    OutputIntact (sendAll results (replies.map fun reply => makeDoipMessage reply.1 reply.2)) := by
  have huncut := uncut_sendAll_iff.mpr hstops
  refine ⟨?_, huncut⟩
  generalize hmessages : (replies.map fun reply => makeDoipMessage reply.1 reply.2) = messages
    at huncut
  have hcuts : Pieces.StopsAfterCut (sendAll results messages) :=
    List.pairwise_iff_getElem.mpr fun i j hi hj hlt => huncut i j _ _ hlt
      (List.getElem?_eq_getElem hi) (List.getElem?_eq_getElem hj)
  have hpieces : ∀ write ∈ sendAll results messages, write.2 <+: write.1 := by
    intro write hmem
    obtain ⟨step, _, rfl⟩ := List.mem_map.mp hmem
    exact List.take_prefix _ _
  intro n
  obtain ⟨whole, hwhole, hprefix⟩ := Pieces.exists_whole_of_stopsAfterCut
    (fun write hmem => hpieces write (List.mem_of_mem_take hmem))
    (hcuts.sublist (List.take_sublist n _))
  have hmessage : whole.Sublist messages := by
    refine hwhole.trans ?_
    rw [List.map_take, map_fst_sendAll]
    exact List.take_sublist n messages
  rw [← hmessages] at hmessage
  obtain ⟨built, hbuilt, rfl⟩ := List.sublist_map_iff.mp hmessage
  refine ⟨built, fun reply hmem => hsize reply (hbuilt.subset hmem), ?_⟩
  rwa [makeStream, List.flatMap_def]

/-- In every run, and for all results of its sends, the output of a connection stays intact
exactly when nothing is taken after a short send. -/
theorem outputIntact_iff (fd : Int) (chunks : List (List UInt8)) (conn : DoIpConnection)
    (actions : List Action) (results : Nat → SendResult)
    (hrun : (receiver 64 {}).Run (DoIpConnection.accepted fd) chunks conn actions) :
    OutputIntact (sendAll results (sends actions)) ↔
      StopsAfterShortSend results (sends actions) := by
  constructor
  · exact fun hintact => uncut_sendAll_iff.mp hintact.uncut
  · have hfollows := (accepted_run_served_host hrun).followsSession
    rw [sends_of_followsSession hfollows]
    refine outputIntact_of_stops fun reply hmem => ?_
    obtain ⟨earlier, frame, hreply⟩ := exists_of_mem_alongFrames hmem
    exact length_repliesFor hreply

/-- A socket that has room for everything keeps the output intact. -/
theorem outputIntact_roomy :
    ∃ conn actions, (receiver 64 {}).Run (DoIpConnection.accepted 7)
        [makeStream [(doipAliveCheckReq, []), (doipAliveCheckReq, [])]] conn actions ∧
      OutputIntact (sendAll (fun _ => .sent 10) (sends actions)) := by
  obtain ⟨conn, actions, hrun, hparse, hserved⟩ := @exists_run_makeStream {} 7
    [(doipAliveCheckReq, []), (doipAliveCheckReq, [])] (by decide) (by decide)
  have hsends : sends actions = [aliveResponse, aliveResponse] := by
    rw [hserved.actions, hparse]
    decide
  refine ⟨conn, actions, hrun, (outputIntact_iff _ _ _ _ _ hrun).mpr ?_⟩
  intro i j message later _ hmessage _ hshort
  rw [hsends] at hmessage
  have hten : message.length = 10 := by
    rcases List.mem_of_getElem? hmessage with _ | ⟨_, _ | ⟨_, hnone⟩⟩
    · rfl
    · rfl
    · exact absurd hnone List.not_mem_nil
  rw [hten] at hshort
  exact absurd hshort.2 (Nat.lt_irrefl 10)

/-- The socket takes one byte of the activation response, and then the acknowledgement as
a whole: no stream of built messages starts like that. -/
theorem not_outputIntact_cutResponse :
    ∃ conn actions, (receiver 64 {}).Run (DoIpConnection.accepted 7)
        [makeStream [(doipRoutingActivationReq, [0x0E, 0x00]),
          (doipDiagnosticMessage, [0x0E, 0x00, 0x00, 0x01, 0x10, 0x03])]] conn actions ∧
      ¬ OutputIntact (sendAll (fun i => if i = 0 then .sent 1 else .sent 64) (sends actions)) ∧
      ∀ messages, ¬ acceptedBytes
        (sendAll (fun i => if i = 0 then .sent 1 else .sent 64) (sends actions)) <+:
          makeStream messages := by
  obtain ⟨conn, actions, hrun, hparse, hserved⟩ := @exists_run_makeStream {} 7
    [(doipRoutingActivationReq, [0x0E, 0x00]),
      (doipDiagnosticMessage, [0x0E, 0x00, 0x00, 0x01, 0x10, 0x03])] (by decide) (by decide)
  have hnone : ∀ messages, ¬ acceptedBytes
      (sendAll (fun i => if i = 0 then .sent 1 else .sent 64) (sends actions)) <+:
        makeStream messages := by
    rintro messages hprefix
    rw [hserved.actions, hparse] at hprefix
    cases messages with
    | nil => exact absurd (List.prefix_nil.mp hprefix) (List.cons_ne_nil _ _)
    | cons message messages =>
        rw [makeStream, List.flatMap_cons, makeDoipMessage_eq] at hprefix
        obtain ⟨_, hsecond⟩ := List.cons_prefix_cons.mp hprefix
        exact absurd (List.cons_prefix_cons.mp hsecond).1 (by decide)
  refine ⟨conn, actions, hrun, fun hintact => ?_, hnone⟩
  obtain ⟨messages, _, hprefix⟩ := hintact.whole (sendAll _ (sends actions)).length
  rw [List.take_length] at hprefix
  exact hnone messages hprefix

end AutomotiveGateway.DoIp
