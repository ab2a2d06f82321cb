import AutomotiveGateway.Someip.Offers
import AutomotiveGateway.Someip.Sessions

/-!
# The offers of a run

Whatever the service discovery service is called for in between, each call of `send_offers`
offers the services that were registered before it, and nothing else is offered.
-/

namespace AutomotiveGateway.Someip

open ByteOrder Memory

/-- The services that an action offers, as a receiver reads them. -/
def SdAction.offers : SdAction → List UInt16
  | .sendto data _ => (readEntries data).filterMap fun entry =>
      if entry.type = sdEntryOfferService then some entry.serviceId else none
  | .onSubscribe _ => []

/-- The services that calls register. -/
def registered (calls : List SdCall) : List OfferedService :=
  calls.filterMap fun
    | .offerService serviceId ipv4Addr port => some { serviceId, ipv4Addr, port }
    | _ => none

theorem registered_append (calls more : List SdCall) :
    registered (calls ++ more) = registered calls ++ registered more := List.filterMap_append

/-- The services to be offered by calls, in order. -/
def offersDue : List OfferedService → List SdCall → List UInt16
  | _, [] => []
  | services, .offerService serviceId ipv4Addr port :: calls =>
      offersDue (services ++ [{ serviceId, ipv4Addr, port }]) calls
  | services, .sendOffers :: calls =>
      services.map OfferedService.serviceId ++ offersDue services calls
  | services, .setOnSubscribe _ :: calls | services, .onReadable _ :: calls =>
      offersDue services calls

theorem offersDue_append (services : List OfferedService) (calls more : List SdCall) :
    offersDue services (calls ++ more) =
      offersDue services calls ++ offersDue (services ++ registered calls) more := by
  induction calls generalizing services with
  | nil =>
      rw [registered, List.filterMap_nil, List.append_nil]
      rfl
  | cons call calls ih =>
      cases call with
      | offerService serviceId ipv4Addr port =>
          rw [List.cons_append, offersDue, offersDue, ih, List.append_assoc]
          rfl
      | sendOffers =>
          rw [List.cons_append, offersDue, offersDue, ih, List.append_assoc]
          rfl
      | setOnSubscribe present => exact ih services
      | onReadable received => exact ih services

/-! ## One call -/

theorem offers_ack (session : UInt16) (sub : Subscriber) :
    (SdAction.sendto (ackImage session sub.serviceId sub.eventgroupId) sub.addr).offers = [] := by
  rw [SdAction.offers, (read_ackImage _ _ _).2.2]
  rfl

/-- Acknowledgements offer nothing. -/
theorem offers_subscribeAll (service : SomeIpSdService) (subs : List Subscriber) :
    (service.subscribeAll subs).1.offered = service.offered ∧
      (service.subscribeAll subs).2.flatMap SdAction.offers = [] := by
  induction subs generalizing service with
  | nil => exact ⟨rfl, rfl⟩
  | cons sub subs ih =>
      obtain ⟨hoffered, hrest⟩ := ih (service.subscribe sub).1
      have hcallback : (if service.onSubscribe then [SdAction.onSubscribe sub] else []).flatMap
          SdAction.offers = [] := by
        split_ifs <;> rfl
      refine ⟨hoffered, ?_⟩
      rw [SomeIpSdService.subscribeAll, List.flatMap_append, hrest, List.append_nil,
        SomeIpSdService.subscribe, List.flatMap_cons, hcallback, offers_ack]
      rfl

/-- The services that a message offers are read from it as they were registered. -/
theorem offers_offersMessage {services : List OfferedService}
    (hsize : (SomeIpSdService.offersMessage services).size < 4294967296) (session : UInt16)
    (dest : SockaddrIn) :
    (SdAction.sendto ((SomeIpSdService.offersMessage services).image session) dest).offers =
      services.map OfferedService.serviceId := by
  have hoffer : ∀ step : OfferedService × Nat,
      (if (offerEntry step.1 step.2).toRead.type = sdEntryOfferService
        then some (offerEntry step.1 step.2).toRead.serviceId else none) =
        some step.1.serviceId := fun _ => if_pos rfl
  rw [SdAction.offers, SomeIpSdMessage.readEntries_image hsize, offersMessage_eq, List.map_map,
    List.filterMap_map]
  simp only [Function.comp_def, hoffer]
  have hids : services.zipIdx.map (fun step => step.1.serviceId) =
      (services.zipIdx.map Prod.fst).map OfferedService.serviceId := by
    rw [List.map_map]
    rfl
  rw [List.filterMap_eq_map', hids, List.zipIdx_map_fst]

theorem size_offersMessage (services : List OfferedService) :
    (SomeIpSdService.offersMessage services).size = 28 + services.length * 28 := by
  rw [SomeIpSdMessage.size, offersMessage_eq, List.length_map, List.length_map, List.length_zipIdx]
  omega

/-- What a call can do: it sends nothing, offers what is registered, or acknowledges the requests
of a datagram. -/
theorem call_cases {service next : SomeIpSdService} {call : SdCall} {out : List SdAction}
    (hstep : SomeIpSdService.machine.step service call = some (next, out)) :
    (out = [] ∧ next.offered = service.offered ++ registered [call] ∧
      offersDue service.offered [call] = []) ∨
    (call = .sendOffers ∧ next.offered = service.offered ∧ ∃ session,
      out = [.sendto ((SomeIpSdService.offersMessage service.offered).image session)
        sdMulticast]) ∨
    ∃ buf sender, call = .onReadable (some (buf, sender)) ∧
      service.subscribeAll (subscriptions (buf.take 1500) sender) = (next, out) := by
  have hnone : service.offered = service.offered ++ [] := (List.append_nil _).symm
  cases call with
  | offerService serviceId ipv4Addr port =>
      cases hstep
      exact .inl ⟨rfl, rfl, rfl⟩
  | setOnSubscribe present =>
      cases hstep
      exact .inl ⟨rfl, hnone, rfl⟩
  | sendOffers =>
      by_cases hempty : service.offered.isEmpty
      · cases (SomeIpSdService.sendOffers_of_isEmpty hempty).symm.trans hstep
        rw [List.isEmpty_iff.mp hempty]
        exact .inl ⟨rfl, rfl, rfl⟩
      · cases (SomeIpSdService.sendOffers_of_offered hempty).symm.trans hstep
        exact .inr (.inl ⟨rfl, rfl, _, rfl⟩)
  | onReadable received =>
      cases received with
      | none =>
          cases hstep
          exact .inl ⟨rfl, hnone, rfl⟩
      | some datagram =>
          have hhandle := service.handleSdMessage_eq (datagram.1.take 1500) datagram.2
          by_cases hsd : IsSd (datagram.1.take 1500)
          · rw [if_pos hsd] at hhandle
            exact .inr (.inr ⟨_, _, rfl, Option.some.inj (hhandle.symm.trans hstep)⟩)
          · rw [if_neg hsd] at hhandle
            cases hhandle.symm.trans hstep
            exact .inl ⟨rfl, hnone, rfl⟩

theorem offers_step {service next : SomeIpSdService} {call : SdCall} {out : List SdAction}
    (hsize : service.offered.length < 153391688)
    (hstep : SomeIpSdService.machine.step service call = some (next, out)) :
    next.offered = service.offered ++ registered [call] ∧
      out.flatMap SdAction.offers = offersDue service.offered [call] := by
  rcases call_cases hstep with ⟨rfl, hoffered, hnone⟩ | ⟨rfl, hoffered, session, rfl⟩ |
    ⟨buf, sender, rfl, hserved⟩
  · exact ⟨hoffered, hnone.symm⟩
  · refine ⟨hoffered.trans (List.append_nil _).symm, ?_⟩
    rw [List.flatMap_singleton, offers_offersMessage (by rw [size_offersMessage]; omega)]
    exact (List.append_nil _).symm
  · obtain ⟨hoffered, hnothing⟩ :=
      offers_subscribeAll service (subscriptions (buf.take 1500) sender)
    rw [hserved] at hoffered hnothing
    exact ⟨hoffered.trans (List.append_nil _).symm, hnothing⟩

/-- Offers go to the group. -/
theorem dest_of_offers_step {service next : SomeIpSdService} {call : SdCall}
    {out : List SdAction} (hstep : SomeIpSdService.machine.step service call = some (next, out)) :
    ∀ action ∈ out, action.offers ≠ [] → ∃ data, action = .sendto data sdMulticast := by
  intro action hmem hoffers
  rcases call_cases hstep with ⟨rfl, -, -⟩ | ⟨-, -, session, rfl⟩ | ⟨buf, sender, -, hserved⟩
  · exact absurd hmem List.not_mem_nil
  · exact ⟨_, List.mem_singleton.mp hmem⟩
  · have hnothing := (offers_subscribeAll service (subscriptions (buf.take 1500) sender)).2
    rw [hserved] at hnothing
    exact absurd (List.flatMap_eq_nil_iff.mp hnothing action hmem) hoffers

/-! ## Whole runs -/

/-- A run offers what is due, and registers what its calls register. -/
theorem offers_run {first last : SomeIpSdService} {calls : List SdCall} {actions : List SdAction}
    (hrun : SomeIpSdService.machine.Run first calls last actions)
    (hsize : first.offered.length + (registered calls).length < 153391688) :
    last.offered = first.offered ++ registered calls ∧
      actions.flatMap SdAction.offers = offersDue first.offered calls := by
  induction hrun with
  | nil => exact ⟨(List.append_nil _).symm, rfl⟩
  | @cons service call middle out calls last outs _ hstep _ ih =>
      have hcalls : registered (call :: calls) = registered [call] ++ registered calls :=
        registered_append [call] calls
      rw [hcalls, List.length_append] at hsize
      obtain ⟨hmiddle, hout⟩ := offers_step (by omega) hstep
      rw [hmiddle, List.length_append] at ih
      obtain ⟨hlast, houts⟩ := ih (by omega)
      constructor
      · rw [hlast, hcalls, List.append_assoc]
      · rw [List.flatMap_append, hout, houts, ← offersDue_append]
        rfl

end AutomotiveGateway.Someip
