import AutomotiveGateway.Foundation.Scope
import AutomotiveGateway.Gateway.ConfigLoader
import AutomotiveGateway.Gateway.Process

/-!
# The start of the process

`main` reads its files, constructs its objects and registers their sockets. Every step may fail.
Either the loop is entered with five descriptors of its own, or `main` returns 1, and then at most
one socket is left behind: that of a constructor which threw behind its call of `socket`.
-/

namespace AutomotiveGateway

open Can DoIp Scope Someip StdString

/-- What the system calls at the start return, as far as it is looked at: the contents of the
files, the descriptors, and whether the other calls succeed. -/
structure StartReplies where
  gatewayConf : Option StdString
  vehicleDbc : Option StdString
  publisherFd : Int
  epollFd : Int
  canFd : Int
  canIndex : Bool
  canBind : Bool
  sdFd : Int
  sdBind : Bool
  sdWatch : Bool
  canWatch : Bool
  doipFd : Int
  doipBind : Bool
  doipListen : Bool
  doipWatch : Bool

variable {D : Type}

/-- The statements of `main` that may leave it, up to `run`. `setsockopt`, `fcntl` and `sendto`
are not checked. -/
def startStatements (longBits : Nat) (stod : StdString → Option D) (replies : StartReplies) :
    List Statement :=
  [.require (({} : ConfigLoader).load longBits replies.gatewayConf).1,
    .require (DbcParser.parse stod {} replies.vehicleDbc).1,
    .construct replies.publisherFd [],
    .construct replies.epollFd [],
    .construct replies.canFd [replies.canIndex, replies.canBind],
    .construct replies.sdFd [replies.sdBind],
    .require replies.sdWatch,
    .require replies.canWatch,
    .construct replies.doipFd [replies.doipBind, replies.doipListen],
    .require replies.doipWatch]

def mainStart (longBits : Nat) (stod : StdString → Option D) (before : Finset Int)
    (replies : StartReplies) : Outcome :=
  Scope.run before [] (startStatements longBits stod replies)

/-- The loop is entered with the process, whose descriptors are its own. -/
structure EntersLoop (uds : UdsHandler) (fds : Descriptors) (before : Finset Int)
    (replies : StartReplies) (outcome : Outcome) (first : Process) : Prop where
  entered : outcome.entered = true
  all : fds.all =
    [replies.publisherFd, replies.epollFd, replies.canFd, replies.sdFd, replies.doipFd]
  wired : first.Wired uds fds (World.start uds fds.listenFd)
  own : first.openFds = fds.all.toFinset
  openFds : outcome.openFds = before ∪ first.openFds
  new : ∀ fd ∈ fds.all, 0 ≤ fd ∧ fd ∉ before

/-- `main` returns 1 behind a failed statement. The objects that were complete are destroyed,
the last one first. Open are the descriptors from before, and at most the CAN socket, the service
discovery socket or the listening socket. -/
structure ReturnsOne (statements : List Statement) (before : Finset Int) (replies : StartReplies)
    (outcome : Outcome) : Prop where
  left : outcome.entered = false
  failed : ∃ front failed rest, statements = front ++ failed :: rest ∧
    (∀ statement ∈ front, statement.Succeeds) ∧ ¬ failed.Succeeds ∧
    outcome.closed = (opened front).reverse ∧
    outcome.openFds = before ∪ failed.opens.toFinset
  remaining : outcome.openFds = before ∨
    ∃ fd ∈ [replies.canFd, replies.sdFd, replies.doipFd], outcome.openFds = insert fd before

variable {longBits : Nat} {stod : StdString → Option D} {before : Finset Int}
  {replies : StartReplies}

theorem opened_startStatements
    (hall : ∀ statement ∈ startStatements longBits stod replies, statement.Succeeds) :
    (∀ fd ∈ opened (startStatements longBits stod replies), 0 ≤ fd) ∧
    opened (startStatements longBits stod replies) =
      [replies.publisherFd, replies.epollFd, replies.canFd, replies.sdFd, replies.doipFd] := by
  simp only [startStatements, List.forall_mem_cons, Statement.Succeeds] at hall
  obtain ⟨-, -, ⟨hpublisher, -⟩, ⟨hepoll, -⟩, ⟨hcan, -⟩, ⟨hsd, -⟩, -, -, ⟨hdoip, -⟩, -⟩ := hall
  simp [opened, startStatements, Statement.opens, hpublisher, hepoll, hcan, hsd, hdoip]

/-- A statement that fails leaves nothing open but one of three sockets. -/
theorem opens_of_failed {failed : Statement}
    (hmem : failed ∈ startStatements longBits stod replies) (hfailed : ¬ failed.Succeeds) :
    failed.opens = [] ∨
      ∃ fd ∈ [replies.canFd, replies.sdFd, replies.doipFd], failed.opens = [fd] := by
  have hconstruct : ∀ fd calls, (Statement.construct fd calls).opens = [] ∨
      (Statement.construct fd calls).opens = [fd] := by
    intro fd calls
    rw [Statement.opens]
    split_ifs
    · exact .inr rfl
    · exact .inl rfl
  -- A constructor that calls nothing else fails without a descriptor.
  have hbare : ∀ fd, ¬ (Statement.construct fd []).Succeeds →
      (Statement.construct fd []).opens = [] := by
    intro fd hfails
    exact if_neg fun hpos => hfails ⟨hpos, List.forall_mem_nil _⟩
  simp only [startStatements, List.mem_cons, List.not_mem_nil, or_false] at hmem
  rcases hmem with rfl | rfl | rfl | rfl | rfl | rfl | rfl | rfl | rfl | rfl
  · exact .inl rfl
  · exact .inl rfl
  · exact .inl (hbare _ hfailed)
  · exact .inl (hbare _ hfailed)
  · exact (hconstruct _ _).imp id fun h => ⟨_, by simp, h⟩
  · exact (hconstruct _ _).imp id fun h => ⟨_, by simp, h⟩
  · exact .inl rfl
  · exact .inl rfl
  · exact (hconstruct _ _).imp id fun h => ⟨_, by simp, h⟩
  · exact .inl rfl

/-- Whatever the system calls at the start return: the loop is entered with five descriptors of
`main`, of which three are watched, or `main` returns 1 and leaves at most one socket open, that of
the constructor that threw. -/
theorem startup (longBits : Nat) (stod : StdString → Option D) (gateway : Gateway)
    (uds : UdsHandler) (before : Finset Int) (replies : StartReplies)
    (hfresh : Fresh before (startStatements longBits stod replies)) :
    (∃ fds first, Process.start gateway uds fds = some first ∧
      EntersLoop uds fds before replies (mainStart longBits stod before replies) first) ∨
    ReturnsOne (startStatements longBits stod replies) before replies
      (mainStart longBits stod before replies) := by
  rcases run_cases hfresh with ⟨hall, hrun⟩ |
    ⟨front, failed, rest, hsplit, hfront, hfailed, hrun⟩
  · left
    obtain ⟨hpos, hopened⟩ := opened_startStatements hall
    have hfront := @Fresh.opened_front before [] _ (by rwa [List.append_nil]) hall
    rw [hopened] at hfront hrun hpos
    obtain ⟨hnodup, hnew, -⟩ := hfront
    let fds : Descriptors :=
      ⟨replies.publisherFd, replies.epollFd, replies.canFd, replies.sdFd, replies.doipFd, hnodup⟩
    obtain ⟨first, hstart, -, hwired⟩ := Process.exists_start gateway uds fds
    have hopen : first.openFds = fds.all.toFinset := by
      rw [hwired.openFds_eq, hwired.server_eq]
      exact Finset.union_empty _
    refine ⟨fds, first, hstart, ⟨?_, rfl, hwired, hopen, ?_, fun fd hfd => ?_⟩⟩
    · rw [mainStart, hrun]
    · rw [mainStart, hrun, hopen]
      rfl
    · exact ⟨hpos fd hfd, hnew fd hfd⟩
  · right
    have hmem : failed ∈ startStatements longBits stod replies := by
      rw [hsplit]
      exact List.mem_append_right _ List.mem_cons_self
    refine ⟨?_, ⟨front, failed, rest, hsplit, hfront, hfailed, ?_, ?_⟩, ?_⟩
    · rw [mainStart, hrun]
    · rw [mainStart, hrun]
    · rw [mainStart, hrun]
    · rw [mainStart, hrun]
      refine (opens_of_failed hmem hfailed).imp (fun hnone => ?_) ?_
      · rw [hnone]
        exact Finset.union_empty before
      · rintro ⟨fd, hfd, hone⟩
        refine ⟨fd, hfd, ?_⟩
        rw [hone]
        exact Finset.union_comm before {fd}

/-- The CAN interface does not exist. -/
def missingInterface : StartReplies where
  gatewayConf := some "A 1 2\n".toList
  vehicleDbc := some []
  publisherFd := 3
  epollFd := 4
  canFd := 5
  canIndex := false
  canBind := false
  sdFd := -1
  sdBind := false
  sdWatch := false
  canWatch := false
  doipFd := -1
  doipBind := false
  doipListen := false
  doipWatch := false

theorem startup_missingInterface :
    ReturnsOne (startStatements (D := Int) 32 (fun _ => none) missingInterface) {0, 1, 2}
      missingInterface (mainStart (D := Int) 32 (fun _ => none) {0, 1, 2} missingInterface) := by
  have hleft : (mainStart (D := Int) 32 (fun _ => none) {0, 1, 2} missingInterface).entered =
      false := by
    decide +kernel
  have hfresh : Fresh {0, 1, 2} (startStatements (D := Int) 32 (fun _ => none)
      missingInterface) :=
    ⟨List.forall_mem_nil _, fun _ => ⟨List.forall_mem_nil _, fun _ => ⟨by decide, fun _ =>
      ⟨by decide, fun _ => ⟨by decide, fun hcan => absurd hcan (by decide)⟩⟩⟩⟩⟩
  rcases startup 32 (fun _ => (none : Option Int)) { publisher := .create 0 0, sd := {} } {}
    {0, 1, 2} missingInterface hfresh with
    ⟨fds, first, -, henters⟩ | hreturns
  · exact absurd (henters.entered.symm.trans hleft) (by decide)
  · exact hreturns

end AutomotiveGateway
