import AutomotiveGateway.DoIp.Reassembly

/-!
# Reassembly with a 32-bit `size_t`

On the 32-bit target the sum of header size and announced payload length is
taken modulo `2 ^ 32`. The loop is safe for exactly the buffers whose complete
messages are not followed by a header that makes the sum wrap.
-/

namespace AutomotiveGateway.DoIp

open Memory

namespace DoIpConnection

/-- From this buffer the loop ends, and each iteration that hands a message over
removes at least a header and shows the handler only pending bytes. -/
def ReassemblySafe (w : Nat) (uds : UdsHandler) (conn : DoIpConnection) : Prop :=
  Loop.Terminates (reassembleOne w uds) conn ∧
  ∀ outs middle next actions, Loop.Reaches (reassembleOne w uds) conn outs middle →
    middle.reassembleOne w uds = some (next, actions) →
    next.recvLen + doipHeaderSize ≤ middle.recvLen ∧
    ∀ frame ∈ dispatches actions,
      doipHeaderSize + frame.header.payloadLength.toNat ≤ middle.recvLen

/-- The sum of header size and announced length wraps for the header, if any,
behind the complete messages of the buffer. -/
def WrappingHeader (w : Nat) (conn : DoIpConnection) : Prop :=
  doipHeaderSize ≤ (greedyParse conn.pending).2.length ∧
    2 ^ w ≤ doipHeaderSize +
      (DoIpHeader.ofBytes (greedyParse conn.pending).2).payloadLength.toNat

theorem totalFits_iff_not_wrappingHeader (w : Nat) (conn : DoIpConnection) :
    TotalFits w (greedyParse conn.pending).2 ↔ ¬ conn.WrappingHeader w := by
  unfold TotalFits WrappingHeader
  omega

/-- Without a wrap, an iteration takes a whole message off the front, and what
the greedy parse leaves over stays the same. -/
theorem reassembleOne_of_fits {w : Nat} (hw : recvBufSize < 2 ^ w) (uds : UdsHandler)
    {conn next : DoIpConnection} {actions : List Action}
    (hfits : TotalFits w (greedyParse conn.pending).2)
    (hstep : conn.reassembleOne w uds = some (next, actions)) :
    ∃ header, doipHeaderSize + header.payloadLength.toNat ≤ conn.recvLen ∧
      next.recvLen = conn.recvLen - (doipHeaderSize + header.payloadLength.toNat) ∧
      (dispatches actions).map Frame.header = [header] ∧
      (greedyParse next.pending).2 = (greedyParse conn.pending).2 := by
  by_cases hcomplete : doipHeaderSize +
      (DoIpHeader.ofBytes conn.pending).payloadLength.toNat ≤ conn.pending.length
  · obtain ⟨next', hstep', _, hpending⟩ := reassembleOne_of_complete hw uds rfl hcomplete
    rw [hstep, Option.some.injEq, Prod.mk.injEq] at hstep'
    obtain ⟨rfl, rfl⟩ := hstep'
    refine ⟨DoIpHeader.ofBytes conn.pending, by rwa [length_pending] at hcomplete, ?_, ?_, ?_⟩
    · rw [← next.length_pending, hpending, List.length_drop, length_pending]
    · have hserve := conn.toTester.dispatches_serve uds
      simp only [dispatches] at hserve ⊢
      simp [Action.dispatched?, hserve]
    · rw [greedyParse_of_complete rfl hcomplete, hpending]
  · have hshort : conn.pending.length < doipHeaderSize ∨ conn.pending.length <
        doipHeaderSize + (DoIpHeader.ofBytes conn.pending).payloadLength.toNat := by omega
    rw [greedyParse_of_incomplete hshort] at hfits
    rw [reassembleOne_of_incomplete uds hfits hshort] at hstep
    cases hstep

/-- The loop gets to the bytes behind the complete messages, wrap or not. -/
theorem reaches_leftover {w : Nat} (hw : recvBufSize < 2 ^ w) (uds : UdsHandler)
    (conn : DoIpConnection) :
    ∃ outs middle, Loop.Reaches (reassembleOne w uds) conn outs middle ∧
      middle.pending = (greedyParse conn.pending).2 := by
  induction hlen : conn.recvLen using Nat.strongRecOn generalizing conn with
  | ind len ih =>
      by_cases hcomplete : doipHeaderSize +
          (DoIpHeader.ofBytes conn.pending).payloadLength.toNat ≤ conn.pending.length
      · obtain ⟨next, hstep, _, hpending⟩ := reassembleOne_of_complete hw uds rfl hcomplete
        have hshrink : next.recvLen < len := hlen ▸ recvLen_lt_of_complete hpending hcomplete
        obtain ⟨outs, middle, hreach, hmiddle⟩ := ih next.recvLen hshrink next rfl
        refine ⟨_, middle, .step hstep hreach, ?_⟩
        rw [hmiddle, greedyParse_of_complete rfl hcomplete, hpending]
      · refine ⟨[], conn, .refl conn, ?_⟩
        rw [greedyParse_of_incomplete (by omega)]

/-- A header whose total wraps is handled at once, although its payload reaches
behind the pending bytes. -/
theorem reassembleOne_of_wrap (uds : UdsHandler) {conn : DoIpConnection} {header : DoIpHeader}
    (hlen : doipHeaderSize ≤ conn.recvLen) (hheader : DoIpHeader.ofBytes conn.pending = header)
    (hwrap : 2 ^ 32 ≤ doipHeaderSize + header.payloadLength.toNat) :
    ∃ next actions frame, conn.reassembleOne 32 uds = some (next, actions) ∧
      frame ∈ dispatches actions ∧
      conn.recvLen < doipHeaderSize + frame.header.payloadLength.toNat := by
  have hbuf := conn.recvLen_le
  have hlength := header.payloadLength.toNat_lt
  have hsmall : (doipHeaderSize + header.payloadLength.toNat) % 2 ^ 32 < doipHeaderSize := by
    unfold doipHeaderSize at hwrap ⊢
    omega
  rw [reassembleOne_of_header 32 uds hlen hheader, if_neg (by omega)]
  refine ⟨_, _, ⟨header, (conn.recvBuf.drop doipHeaderSize).take header.payloadLength.toNat⟩,
    rfl, ?_, ?_⟩
  · exact List.mem_filterMap.mpr ⟨_, List.mem_cons_self, rfl⟩
  · unfold recvBufSize at hbuf
    dsimp only
    omega

/-! ## Calls that never return -/

/-- The total of the pending header wraps to zero, so handling it removes nothing. -/
def ZeroTotal (w : Nat) (conn : DoIpConnection) : Prop :=
  doipHeaderSize ≤ conn.recvLen ∧
    (doipHeaderSize + (DoIpHeader.ofBytes conn.pending).payloadLength.toNat) % 2 ^ w = 0

/-- A zero total leaves buffer and length as they are, so the loop meets the same
header again. -/
theorem ZeroTotal.step {w : Nat} {conn : DoIpConnection} (h : conn.ZeroTotal w)
    (uds : UdsHandler) :
    ∃ next actions, conn.reassembleOne w uds = some (next, actions) ∧ next.ZeroTotal w := by
  obtain ⟨hlen, hzero⟩ := h
  obtain ⟨hbuf, hrecvLen⟩ := conn.handleDoipMessage_buffer uds (DoIpHeader.ofBytes conn.pending)
    (conn.recvBuf.drop doipHeaderSize) (DoIpHeader.ofBytes conn.pending).payloadLength.toNat
  rw [reassembleOne_of_header w uds hlen rfl, hzero, if_neg (by omega)]
  refine ⟨_, _, rfl, ?_⟩
  rw [ZeroTotal, recvLen_consume, hrecvLen, pending_consume, List.drop_zero, pending, hbuf,
    hrecvLen]
  exact ⟨hlen, hzero⟩

theorem ZeroTotal.run_eq_none {w : Nat} {conn : DoIpConnection} (h : conn.ZeroTotal w)
    (uds : UdsHandler) (fuel : Nat) : Loop.run (reassembleOne w uds) fuel conn = none :=
  Loop.run_eq_none_of_stuck (ZeroTotal w) (fun _ hstate => hstate.step uds) h fuel

/-- A loop that ends at all ends within one more iteration than there are bytes. -/
theorem run_isSome_of_terminates {w : Nat} (uds : UdsHandler) {conn : DoIpConnection}
    (h : Loop.Terminates (reassembleOne w uds) conn) :
    (Loop.run (reassembleOne w uds) (conn.recvLen + 1) conn).isSome := by
  obtain ⟨fuel, hfuel⟩ := h
  induction fuel generalizing conn with
  | zero => cases hfuel
  | succ fuel ih =>
      by_cases hlen : doipHeaderSize ≤ conn.recvLen
      swap
      · have hexit : conn.reassembleOne w uds = none := by
          rw [reassembleOne, if_pos (by omega)]
        rw [Loop.run_of_exit hexit]
        rfl
      have hbody := reassembleOne_of_header w uds hlen rfl
      split at hbody
      next hwait =>
        rw [Loop.run_of_exit hbody]
        rfl
      next hready =>
        by_cases hzero : conn.ZeroTotal w
        · rw [hzero.run_eq_none uds] at hfuel
          cases hfuel
        rw [Loop.run_of_step hbody, Option.isSome_map] at hfuel ⊢
        obtain ⟨result, hresult⟩ := Option.isSome_iff_exists.mp (ih hfuel)
        refine Option.isSome_of_eq_some (Loop.run_mono ?_ hresult)
        rw [recvLen_consume, (conn.handleDoipMessage_buffer uds _ _ _).2]
        unfold ZeroTotal at hzero
        unfold doipHeaderSize at hzero hlen hready ⊢
        omega

/-- A call has no result in the model exactly when its loop never ends. -/
theorem onClientData_eq_none_iff (w : Nat) (uds : UdsHandler) (conn : DoIpConnection)
    {chunk : List UInt8} (hchunk : chunk ≠ []) (hfits : chunk.length ≤ conn.capacity) :
    conn.onClientData w uds (.data chunk) = none ↔
      ¬ Loop.Terminates (reassembleOne w uds) (conn.append chunk) := by
  have hpos : ¬ ((chunk.length : Int) ≤ 0) := by
    have := List.length_pos_iff.mpr hchunk
    omega
  simp only [onClientData, RecvResult.recv, List.take_of_length_le hfits, if_neg hpos,
    Option.map_eq_none_iff]
  constructor
  · intro hnone hends
    have hsome := run_isSome_of_terminates uds hends
    rw [hnone] at hsome
    cases hsome
  · intro hhang
    by_contra hsome
    exact hhang ⟨_, Option.isSome_iff_ne_none.mpr hsome⟩

/-! ## The safe buffers -/

/-- With a 32-bit `size_t` the reassembly loop is safe for exactly the buffers in
which no header behind the complete messages announces `2 ^ 32 - 8` bytes or more. -/
theorem reassemblySafe_iff_not_wrappingHeader (uds : UdsHandler) (conn : DoIpConnection) :
    conn.ReassemblySafe 32 uds ↔ ¬ conn.WrappingHeader 32 := by
  have hw : recvBufSize < 2 ^ 32 := by decide
  constructor
  · rintro ⟨_, hsafe⟩ ⟨hheader, hwrap⟩
    obtain ⟨outs, middle, hreach, hmiddle⟩ := reaches_leftover hw uds conn
    rw [← hmiddle] at hheader hwrap
    rw [length_pending] at hheader
    obtain ⟨next, actions, frame, hstep, hframe, hbeyond⟩ :=
      reassembleOne_of_wrap uds hheader rfl hwrap
    have hslice := (hsafe outs middle next actions hreach hstep).2 frame hframe
    omega
  · intro hnot
    have hfits := (totalFits_iff_not_wrappingHeader 32 conn).mpr hnot
    constructor
    · obtain ⟨next, actions, hrun, _⟩ :=
        run_reassembleOne hw uds conn hfits (Nat.lt_succ_self _)
      exact ⟨_, Option.isSome_of_eq_some hrun⟩
    · intro outs middle next actions hreach hstep
      have hmiddle : TotalFits 32 (greedyParse middle.pending).2 := by
        refine hreach.invariant (fun state => TotalFits 32 (greedyParse state.pending).2) ?_ hfits
        intro state next out hstate hstep
        obtain ⟨_, _, _, _, hleft⟩ := reassembleOne_of_fits hw uds hstate hstep
        rwa [hleft]
      obtain ⟨header, hwhole, hnext, hheaders, _⟩ := reassembleOne_of_fits hw uds hmiddle hstep
      refine ⟨by omega, ?_⟩
      intro frame hframe
      have hmem : frame.header ∈ (dispatches actions).map Frame.header :=
        List.mem_map.mpr ⟨frame, hframe, rfl⟩
      rw [hheaders, List.mem_singleton] at hmem
      rw [hmem]
      exact hwhole

/-- A fresh connection after an alive check that announces `2 ^ 32 - 8` bytes. -/
def hangingConnection : DoIpConnection :=
  (accepted 7).append [0x02, 0xFD, 0x00, 0x07, 0xFF, 0xFF, 0xFF, 0xF8]

theorem pending_hangingConnection :
    hangingConnection.pending = [0x02, 0xFD, 0x00, 0x07, 0xFF, 0xFF, 0xFF, 0xF8] :=
  (accepted 7).pending_append (by decide)

/-- On the 32-bit target that message makes the loop run forever on one header. -/
theorem hangingConnection_not_reassemblySafe :
    ¬ Loop.Terminates (reassembleOne 32 {}) hangingConnection ∧
      ¬ hangingConnection.ReassemblySafe 32 {} := by
  have hzero : hangingConnection.ZeroTotal 32 := by
    rw [ZeroTotal, ← length_pending, pending_hangingConnection]
    decide
  have hhang : ¬ Loop.Terminates (reassembleOne 32 {}) hangingConnection := by
    rintro ⟨fuel, hfuel⟩
    rw [hzero.run_eq_none {}] at hfuel
    cases hfuel
  exact ⟨hhang, fun hsafe => hhang hsafe.1⟩

end DoIpConnection

end AutomotiveGateway.DoIp
