import Leitstand.QueueBacklog
import Leitstand.SubscriberReads
import Leitstand.WebSocketHub

namespace Leitstand

open StepSystem

namespace Client
variable {P : Type} {client : Client P} {sender : Sender} {frame : ServerFrame P}

theorem eventsFrom_say (event : BusEvent P) (i : Nat) :
    (client.say sender (.event event)).eventsFrom i =
      client.eventsFrom i ++ if sender = .pump i then [event] else [] := by
  unfold say eventsFrom
  rw [List.filterMap_append]
  split_ifs with h <;> simp [h]

theorem eventsFrom_say_of_ne {i : Nat} (h : ∀ event, frame ≠ .event event) :
    (client.say sender frame).eventsFrom i = client.eventsFrom i := by
  unfold say eventsFrom
  rw [List.filterMap_append]
  cases frame with
  | event event => exact absurd rfl (h event)
  | hello | ping | pong | error => exact List.append_nil _

end Client

namespace Hub
variable {P : Type} {s s' : Hub P} {c d i j q : Nat} {client : Client P} {pump : Pump}
  {topic : String} {a : HubAction P}

section Lookup

theorem clients_setClient (f : Client P → Client P) :
    (s.setClient c f).clients[d]? = if c = d then s.clients[d]?.map f else s.clients[d]? := by
  unfold setClient
  rw [List.getElem?_modify]
  split_ifs <;> simp

theorem clients_setClient_self {f : Client P → Client P} (h : s.clients[c]? = some client) :
    (s.setClient c f).clients[c]? = some (f client) := by
  rw [clients_setClient, if_pos rfl, h, Option.map_some]

theorem pumps_setStage (stage : PumpStage) : (s.setStage i stage).pumps[j]? =
    s.pumps[j]?.map fun pump => if i = j then { pump with stage } else pump := by
  unfold setStage
  rw [List.getElem?_modify]
  split_ifs <;> simp

theorem of_setStage {stage : PumpStage} (h : (s.setStage i stage).pumps[j]? = some pump) :
    (i = j ∧ ∃ old, s.pumps[i]? = some old ∧ pump = { old with stage }) ∨
      (i ≠ j ∧ s.pumps[j]? = some pump) := by
  rw [pumps_setStage] at h
  obtain ⟨old, hold, rfl⟩ := Option.map_eq_some_iff.mp h
  by_cases hij : i = j
  · subst hij
    exact .inl ⟨rfl, old, hold, if_pos rfl⟩
  · rw [if_neg hij]
    exact .inr ⟨hij, hold⟩

theorem setStage_ne {stage : PumpStage} (h : j ≠ i) :
    (s.setStage j stage).pumps[i]? = s.pumps[i]? := by
  rw [pumps_setStage]
  simp [h]

theorem setStage_self {stage : PumpStage} (h : s.pumps[i]? = some pump) :
    (s.setStage i stage).pumps[i]? = some { pump with stage } := by
  rw [pumps_setStage, h]
  simp

theorem pumps_cancel (tasks : List Nat) : (s.cancel tasks).pumps[j]? =
    s.pumps[j]?.map fun pump => if j ∈ tasks then { pump with cancelled := true } else pump := by
  unfold cancel
  rw [List.getElem?_mapIdx]

theorem call_eq_some {a : BusAction P} : s.call a = some s' ↔
    ∃ bus, s.bus.step a = some bus ∧ s' = { s with bus, calls := s.calls ++ [a] } := by
  unfold call
  rw [Option.map_eq_some_iff]
  constructor
  · rintro ⟨bus, hbus, rfl⟩
    exact ⟨bus, hbus, rfl⟩
  · rintro ⟨bus, hbus, rfl⟩
    exact ⟨bus, hbus, rfl⟩

theorem isOwn_iff : s.isOwn q = true ↔ ∃ (i : Nat) (pump : Pump),
    s.pumps[i]? = some pump ∧ pump.stage.queue? = some q := by
  unfold isOwn
  rw [List.any_eq_true]
  constructor
  · rintro ⟨pump, hpump, hqueue⟩
    obtain ⟨i, hi⟩ := List.mem_iff_getElem?.mp hpump
    exact ⟨i, pump, hi, of_decide_eq_true hqueue⟩
  · rintro ⟨i, pump, hi, hqueue⟩
    exact ⟨pump, List.mem_of_getElem? hi, decide_eq_true hqueue⟩

theorem stageOf_eq_some {stage : EndpointStage} : s.stageOf c = some stage ↔
    ∃ client, s.clients[c]? = some client ∧ client.stage = stage := by
  unfold stageOf
  rw [Option.map_eq_some_iff]

theorem exists_of_connected (h : s.connected c = true) : ∃ client, s.clients[c]? = some client := by
  unfold connected at h
  cases hc : s.clients[c]? with
  | none =>
    rw [hc] at h
    cases h
  | some client => exact ⟨client, rfl⟩

theorem eventsOf_setClient {f : Client P → Client P} : (s.setClient c f).eventsOf d i =
    if c = d then (s.clients[d]?).elim [] fun client => (f client).eventsFrom i
    else s.eventsOf d i := by
  unfold eventsOf
  rw [clients_setClient]
  split_ifs
  · cases s.clients[d]? <;> rfl
  · rfl

theorem subsOf_eq (h : s.clients[c]? = some client) : s.subsOf c = client.subs := by
  unfold subsOf
  rw [h, Option.elim_some]

end Lookup

section Inversion

theorem finish_eq_some {topicPrefix : String} (h : s.finish i topicPrefix q = some s') :
    ∃ bus, s.bus.step (.unsubscribe topicPrefix q) = some bus ∧
      s' = ({ s with bus, calls := s.calls ++ [.unsubscribe topicPrefix q] } : Hub P).setStage i
        (.ended (some q)) := by
  obtain ⟨called, hcalled, rfl⟩ := Option.map_eq_some_iff.mp h
  obtain ⟨bus, hbus, rfl⟩ := call_eq_some.mp hcalled
  exact ⟨bus, hbus, rfl⟩

theorem start_eq_some (h : s.start i = some s') : ∃ pump, s.pumps[i]? = some pump ∧
    pump.stage = .created ∧ (pump.cancelled = true ∧ s' = s.setStage i (.ended none) ∨
      pump.cancelled = false ∧ s' = ({ s with
        bus := s.bus.subscribe pump.topicPrefix
        calls := s.calls ++ [.subscribe pump.topicPrefix] } : Hub P).setStage i
          (.waiting s.bus.queues.length)) := by
  obtain ⟨pump, hpump, h⟩ := Option.bind_eq_some_iff.mp h
  split_ifs at h with hstage hcancelled
  · exact ⟨pump, hpump, not_not.mp hstage, .inl ⟨hcancelled, (Option.some.inj h).symm⟩⟩
  · obtain ⟨called, hcalled, rfl⟩ := Option.map_eq_some_iff.mp h
    obtain ⟨bus, hbus, rfl⟩ := call_eq_some.mp hcalled
    obtain rfl := Option.some.inj hbus
    exact ⟨pump, hpump, not_not.mp hstage, .inr ⟨Bool.eq_false_iff.mpr hcancelled, rfl⟩⟩

theorem forward_eq_some (h : s.forward i = some s') : ∃ pump q inbox event bus,
    s.pumps[i]? = some pump ∧ pump.stage = .waiting q ∧ pump.cancelled = false ∧
    s.bus.queues[q]? = some inbox ∧ inbox.items.head? = some event ∧
    s.bus.step (.read q) = some bus ∧
    (s.connected pump.client = true ∧
        s' = (({ s with bus, calls := s.calls ++ [.read q] } : Hub P).setClient pump.client
          (·.say (.pump i) (.event event))).setStage i (.sending q) ∨
      s.connected pump.client = false ∧
        ({ s with bus, calls := s.calls ++ [.read q] } : Hub P).finish i pump.topicPrefix q =
          some s') := by
  obtain ⟨pump, hpump, h⟩ := Option.bind_eq_some_iff.mp h
  split at h
  · rename_i q hstage hcancelled
    obtain ⟨inbox, hinbox, h⟩ := Option.bind_eq_some_iff.mp h
    obtain ⟨event, hevent, h⟩ := Option.bind_eq_some_iff.mp h
    obtain ⟨read, hread, h⟩ := Option.bind_eq_some_iff.mp h
    obtain ⟨bus, hbus, rfl⟩ := call_eq_some.mp hread
    refine ⟨pump, q, inbox, event, bus, hpump, hstage, hcancelled, hinbox, hevent, hbus, ?_⟩
    split_ifs at h with hconnected
    · exact .inl ⟨hconnected, (Option.some.inj h).symm⟩
    · exact .inr ⟨Bool.eq_false_iff.mpr hconnected, h⟩
  · cases h

theorem forwarded_eq_some (h : s.forwarded i = some s') : ∃ pump q, s.pumps[i]? = some pump ∧
    pump.stage = .sending q ∧ pump.cancelled = false ∧ s' = s.setStage i (.waiting q) := by
  obtain ⟨pump, hpump, h⟩ := Option.bind_eq_some_iff.mp h
  split at h
  · rename_i q hstage hcancelled
    exact ⟨pump, q, hpump, hstage, hcancelled, (Option.some.inj h).symm⟩
  · cases h

theorem fail_eq_some {gone : Bool} (h : s.fail i gone = some s') : ∃ pump q,
    s.pumps[i]? = some pump ∧ pump.stage = .sending q ∧ pump.cancelled = false ∧
    (s.setClient pump.client fun client =>
      { client with connected := client.connected && !gone }).finish i pump.topicPrefix q = some s' := by
  obtain ⟨pump, hpump, h⟩ := Option.bind_eq_some_iff.mp h
  split at h
  · rename_i q hstage hcancelled
    exact ⟨pump, q, hpump, hstage, hcancelled, h⟩
  · cases h

theorem unwind_eq_some (h : s.unwind i = some s') : ∃ pump q, s.pumps[i]? = some pump ∧
    pump.stage.isOpen = true ∧ pump.cancelled = true ∧ pump.stage.queue? = some q ∧
    s.finish i pump.topicPrefix q = some s' := by
  obtain ⟨pump, hpump, h⟩ := Option.bind_eq_some_iff.mp h
  split_ifs at h with hopen
  obtain ⟨q, hq, h⟩ := Option.bind_eq_some_iff.mp h
  rw [Bool.and_eq_true] at hopen
  exact ⟨pump, q, hpump, hopen.1, hopen.2, hq, h⟩

theorem whileServing_eq_some {beat : HeartbeatStage} {t : Hub P}
    (h : s.whileServing c beat t = some s') : ∃ client, s.clients[c]? = some client ∧
      client.stage.serves = true ∧ client.heartbeat = beat ∧ s' = t := by
  obtain ⟨client, hclient, h⟩ := Option.bind_eq_some_iff.mp h
  split_ifs at h with hbeat
  rw [Bool.and_eq_true, decide_eq_true_eq] at hbeat
  exact ⟨client, hclient, hbeat.1, hbeat.2, (Option.some.inj h).symm⟩

end Inversion

section Quiet

/-- Nothing is called on the bus, no event is handed to a client, and pumps at most get cancelled or
created. -/
structure Quiet (s s' : Hub P) : Prop where
  settings : s'.settings = s.settings
  bus : s'.bus = s.bus
  calls : s'.calls = s.calls
  kept : ∀ (j : Nat) pump, s.pumps[j]? = some pump → ∃ pump', s'.pumps[j]? = some pump' ∧
    pump'.client = pump.client ∧ pump'.topicPrefix = pump.topicPrefix ∧
    pump'.stage = pump.stage ∧ (pump.cancelled = true → pump'.cancelled = true)
  added : ∀ (j : Nat) pump', s'.pumps[j]? = some pump' →
    pump'.stage = .created ∨ j < s.pumps.length
  events : ∀ c i, s'.eventsOf c i = s.eventsOf c i

theorem Quiet.trans {s'' : Hub P} (h : Quiet s s') (h' : Quiet s' s'') : Quiet s s'' where
  settings := h'.settings.trans h.settings
  bus := h'.bus.trans h.bus
  calls := h'.calls.trans h.calls
  kept := by
    intro j pump hj
    obtain ⟨b, hb, hclient, htopic, hstage, hcancelled⟩ := h.kept j pump hj
    obtain ⟨c, hc, hclient', htopic', hstage', hcancelled'⟩ := h'.kept j b hb
    exact ⟨c, hc, hclient'.trans hclient, htopic'.trans htopic, hstage'.trans hstage,
      fun hj => hcancelled' (hcancelled hj)⟩
  added := by
    intro j pump'' hj
    obtain hcreated | hlt := h'.added j pump'' hj
    · exact .inl hcreated
    · have hmid := List.getElem?_eq_getElem hlt
      obtain hcreated | hlt := h.added j _ hmid
      · obtain ⟨pump', hpump', -, -, hstage, -⟩ := h'.kept j _ hmid
        obtain rfl := Option.some.inj (hpump'.symm.trans hj)
        exact .inl (hstage.trans hcreated)
      · exact .inr hlt
  events := fun c i => (h'.events c i).trans (h.events c i)

/-- A step that leaves the pumps be. -/
theorem Quiet.of_pumps (hsettings : s'.settings = s.settings) (hbus : s'.bus = s.bus) (hcalls : s'.calls = s.calls)
    (hpumps : s'.pumps = s.pumps) (hevents : ∀ c i, s'.eventsOf c i = s.eventsOf c i) :
    Quiet s s' where
  settings := hsettings
  bus := hbus
  calls := hcalls
  kept := by
    intro j pump hj
    rw [hpumps]
    exact ⟨pump, hj, rfl, rfl, rfl, id⟩
  added := by
    intro j pump' hj
    rw [hpumps] at hj
    exact .inr (List.getElem?_eq_some_iff.mp hj).1
  events := hevents

theorem Quiet.refl (s : Hub P) : Quiet s s := .of_pumps rfl rfl rfl rfl fun _ _ => rfl

theorem quiet_setClient {f : Client P → Client P}
    (hf : ∀ (client : Client P) i, (f client).eventsFrom i = client.eventsFrom i) :
    Quiet s (s.setClient c f) := by
  refine .of_pumps rfl rfl rfl rfl fun d i => ?_
  rw [eventsOf_setClient]
  split_ifs with hcd
  · unfold eventsOf
    cases s.clients[d]? with
    | none => rfl
    | some client => exact hf client i
  · rfl

theorem quiet_cancel (tasks : List Nat) : Quiet s (s.cancel tasks) where
  settings := rfl
  bus := rfl
  calls := rfl
  kept := by
    intro j pump hj
    rw [pumps_cancel, hj, Option.map_some]
    refine ⟨_, rfl, ?_⟩
    split_ifs
    · exact ⟨rfl, rfl, rfl, fun _ => rfl⟩
    · exact ⟨rfl, rfl, rfl, id⟩
  added := by
    intro j pump' hj
    rw [pumps_cancel] at hj
    obtain ⟨pump, hpump, -⟩ := Option.map_eq_some_iff.mp hj
    exact .inr (List.getElem?_eq_some_iff.mp hpump).1
  events := fun _ _ => rfl

theorem quiet_setHeartbeat {beat : HeartbeatStage} : Quiet s (s.setHeartbeat c beat) :=
  quiet_setClient fun _ _ => rfl

theorem quiet_disconnect : Quiet s (s.disconnect c) := quiet_setClient fun _ _ => rfl

theorem quiet_leave : Quiet s (s.leave c) :=
  (quiet_cancel _).trans (quiet_setClient fun _ _ => rfl)

theorem quiet_resume : Quiet s (s.resume c) := by
  unfold resume
  split_ifs
  · exact quiet_setClient fun _ _ => rfl
  · exact quiet_leave

theorem quiet_answer {frame : ServerFrame P} (hframe : ∀ event, frame ≠ .event event) :
    Quiet s (s.answer c frame) := by
  unfold answer
  split_ifs
  · exact quiet_setClient fun client _ => Client.eventsFrom_say_of_ne hframe
  · exact quiet_leave

theorem quiet_subscribe : Quiet s (s.subscribe c topic) := by
  unfold subscribe
  split
  · exact .refl s
  · have hquiet : Quiet s (s.setClient c fun client =>
        { client with subs := client.subs.upsert (topic, s.pumps.length) fun _ => true }) :=
      quiet_setClient fun _ _ => rfl
    refine ⟨rfl, rfl, rfl, fun j pump hj => ⟨pump, ?_, rfl, rfl, rfl, id⟩, fun j pump' hj => ?_,
      hquiet.events⟩
    · exact (List.getElem?_append_left (List.getElem?_eq_some_iff.mp hj).1).trans hj
    · change (s.pumps ++ [_])[j]? = _ at hj
      rw [List.getElem?_append] at hj
      split_ifs at hj with hlt
      · exact .inr hlt
      · obtain rfl := List.mem_singleton.mp (List.mem_of_getElem? hj)
        exact .inl rfl

theorem quiet_unsubscribe : Quiet s (s.unsubscribe c topic) := by
  unfold unsubscribe
  split
  · exact .refl s
  · exact (quiet_cancel _).trans (quiet_setClient fun _ _ => rfl)

theorem quiet_receive (raw : Json) : Quiet s (s.receive c raw) := by
  unfold receive
  split
  · exact quiet_subscribe.trans quiet_resume
  · exact quiet_unsubscribe.trans quiet_resume
  · exact quiet_resume
  · exact quiet_answer fun _ h => by cases h
  · split
    · exact quiet_answer fun _ h => by cases h
    · exact quiet_leave

theorem quiet_connect (authorization : Option String) (subprotocols : List String) :
    Quiet s (s.connect authorization subprotocols) := by
  unfold connect
  dsimp only
  split_ifs
  · refine .of_pumps rfl rfl rfl rfl fun d i => ?_
    unfold eventsOf
    rw [List.getElem?_append]
    split_ifs with hlt
    · rfl
    · rw [List.getElem?_eq_none (Nat.le_of_not_lt hlt)]
      cases hd : ([_] : List (Client P))[d - s.clients.length]? with
      | none => rfl
      | some client =>
        obtain rfl := List.mem_singleton.mp (List.mem_of_getElem? hd)
        rfl
  · exact .refl s

end Quiet

section Moves

/-- A step of a pump's own, with the calls it makes and the events it hands to its client. -/
inductive PumpMove (bus : EventBus P) (pump : Pump) :
    PumpStage → List (BusAction P) → List (BusEvent P) → Prop where
  | start (h : pump.stage = .created) (hlive : pump.cancelled = false) :
    PumpMove bus pump (.waiting bus.queues.length) [.subscribe pump.topicPrefix] []
  | skip (h : pump.stage = .created) (hcancelled : pump.cancelled = true) :
    PumpMove bus pump (.ended none) [] []
  | forward (q : Nat) (inbox : LossyQueue (BusEvent P)) (event : BusEvent P)
    (h : pump.stage = .waiting q) (hlive : pump.cancelled = false)
    (hinbox : bus.queues[q]? = some inbox) (hevent : inbox.items.head? = some event) :
    PumpMove bus pump (.sending q) [.read q] [event]
  | lose (q : Nat) (h : pump.stage = .waiting q) (hlive : pump.cancelled = false) :
    PumpMove bus pump (.ended (some q)) [.read q, .unsubscribe pump.topicPrefix q] []
  | forwarded (q : Nat) (h : pump.stage = .sending q) (hlive : pump.cancelled = false) :
    PumpMove bus pump (.waiting q) [] []
  | finish (q : Nat) (hopen : pump.stage.isOpen = true) (hq : pump.stage.queue? = some q) :
    PumpMove bus pump (.ended (some q)) [.unsubscribe pump.topicPrefix q] []

/-- The pump `j` makes a step of its own. -/
structure Moves (s s' : Hub P) (j : Nat) (pump : Pump) (stage : PumpStage)
    (calls : List (BusAction P)) (events : List (BusEvent P)) : Prop where
  found : s.pumps[j]? = some pump
  settings : s'.settings = s.settings
  move : PumpMove s.bus pump stage calls events
  bus : exec EventBus.step s.bus calls = some s'.bus
  log : s'.calls = s.calls ++ calls
  pumps : ∀ i : Nat, s'.pumps[i]? = (s.setStage j stage).pumps[i]?
  events : ∀ c i, s'.eventsOf c i =
    s.eventsOf c i ++ if c = pump.client ∧ i = j then events else []

theorem exec_singleton {b : BusAction P} {bus bus' : EventBus P} (h : bus.step b = some bus') :
    exec EventBus.step bus [b] = some bus' := by
  rw [exec_cons, h]
  rfl

/-- A pump that ends, after a change of its connection that hands over nothing. -/
theorem moves_finish {m : Hub P} (hfound : s.pumps[j]? = some pump)
    (hopen : pump.stage.isOpen = true) (hq : pump.stage.queue? = some q) (hm : Quiet s m)
    (hpumps : m.pumps = s.pumps) (h : m.finish j pump.topicPrefix q = some s') :
    Moves s s' j pump (.ended (some q)) [.unsubscribe pump.topicPrefix q] [] := by
  obtain ⟨bus, hbus, rfl⟩ := finish_eq_some h
  rw [hm.bus] at hbus
  refine ⟨hfound, hm.settings, .finish q hopen hq, exec_singleton hbus, ?_, fun i => ?_, fun c i => ?_⟩
  · change m.calls ++ _ = _
    rw [hm.calls]
  · rw [pumps_setStage, pumps_setStage]
    exact congrArg (fun pumps : List Pump => pumps[i]?.map _) hpumps
  · rw [ite_self, List.append_nil]
    exact hm.events c i

theorem eventsOf_say {event : BusEvent P} (h : s.connected c = true) :
    (s.setClient c (·.say (.pump j) (.event event))).eventsOf d i =
      s.eventsOf d i ++ if d = c ∧ i = j then [event] else [] := by
  rw [eventsOf_setClient]
  by_cases hcd : c = d
  · subst hcd
    obtain ⟨client, hclient⟩ := exists_of_connected h
    unfold eventsOf
    rw [if_pos rfl, hclient, Option.elim_some, Option.elim_some, Client.eventsFrom_say]
    congr 1
    by_cases hij : i = j
    · rw [if_pos (congrArg Sender.pump hij.symm), if_pos ⟨rfl, hij⟩]
    · rw [if_neg fun he => hij (Sender.pump.inj he).symm, if_neg fun he => hij he.2]
  · rw [if_neg hcd, if_neg fun he => hcd he.1.symm, List.append_nil]

theorem moves_forward (h : s.forward j = some s') :
    ∃ pump stage calls events, Moves s s' j pump stage calls events := by
  obtain ⟨pump, q, inbox, event, bus, hfound, hstage, hlive, hinbox, hevent, hbus, hend⟩ :=
    forward_eq_some h
  obtain ⟨hconnected, rfl⟩ | ⟨-, h⟩ := hend
  · refine ⟨pump, _, _, _, hfound, rfl, .forward q inbox event hstage hlive hinbox hevent,
      exec_singleton hbus, rfl, fun i => ?_, fun c i => ?_⟩
    · rw [pumps_setStage, pumps_setStage]
      rfl
    · exact eventsOf_say (s := { s with bus, calls := s.calls ++ [.read q] }) hconnected
  · obtain ⟨bus', hbus', rfl⟩ := finish_eq_some h
    refine ⟨pump, _, [.read q, .unsubscribe pump.topicPrefix q], [], hfound, rfl, .lose q hstage hlive,
      ?_, List.append_assoc _ _ _, fun i => ?_, fun c i => ?_⟩
    · rw [exec_cons, hbus, Option.bind_some]
      exact exec_singleton hbus'
    · rw [pumps_setStage, pumps_setStage]
    · rw [ite_self, List.append_nil]
      rfl

theorem moves_start (h : s.start j = some s') :
    ∃ pump stage calls events, Moves s s' j pump stage calls events := by
  obtain ⟨pump, hfound, hstage, ⟨hcancelled, rfl⟩ | ⟨hlive, rfl⟩⟩ := start_eq_some h
  · refine ⟨pump, _, [], [], hfound, rfl, .skip hstage hcancelled, rfl, (List.append_nil _).symm,
      fun _ => rfl, fun c i => ?_⟩
    rw [ite_self, List.append_nil]
    rfl
  · refine ⟨pump, _, _, [], hfound, rfl, .start hstage hlive, rfl, rfl, fun i => ?_, fun c i => ?_⟩
    · rw [pumps_setStage, pumps_setStage]
    · rw [ite_self, List.append_nil]
      rfl

/-- Every step is a call by the rest of the application, a step of a pump, or quiet. -/
theorem step_cases (h : s.step a = some s') : Quiet s s' ∨
    (∃ b, s.allows b = true ∧ s.call b = some s') ∨
    ∃ j pump stage calls events, Moves s s' j pump stage calls events := by
  cases a with
  | bus b =>
    dsimp only [step] at h
    split_ifs at h with hallows
    exact .inr (.inl ⟨b, hallows, h⟩)
  | connect authorization subprotocols =>
    obtain rfl := Option.some.inj h
    exact .inl (quiet_connect authorization subprotocols)
  | receive c raw =>
    dsimp only [step] at h
    split_ifs at h
    obtain rfl := Option.some.inj h
    exact .inl (quiet_receive raw)
  | interrupt c =>
    dsimp only [step] at h
    split_ifs at h
    obtain rfl := Option.some.inj h
    exact .inl quiet_leave
  | answered c =>
    dsimp only [step] at h
    split_ifs at h
    obtain rfl := Option.some.inj h
    exact .inl quiet_resume
  | unanswered c =>
    dsimp only [step] at h
    split_ifs at h
    obtain rfl := Option.some.inj h
    exact .inl (quiet_disconnect.trans quiet_leave)
  | beat c =>
    obtain ⟨-, -, -, -, rfl⟩ := whileServing_eq_some h
    refine .inl ?_
    split_ifs
    · have hsaid : Quiet s (s.setClient c (·.say .heartbeat .ping)) :=
        quiet_setClient fun client _ => Client.eventsFrom_say_of_ne fun _ h => by cases h
      exact hsaid.trans quiet_setHeartbeat
    · exact quiet_setHeartbeat
  | beaten c =>
    obtain ⟨-, -, -, -, rfl⟩ := whileServing_eq_some h
    exact .inl quiet_setHeartbeat
  | unbeaten c | timeout c =>
    obtain ⟨-, -, -, -, rfl⟩ := whileServing_eq_some h
    exact .inl (quiet_disconnect.trans quiet_setHeartbeat)
  | stop c =>
    dsimp only [step] at h
    split_ifs at h
    obtain rfl := Option.some.inj h
    exact .inl quiet_setHeartbeat
  | close c =>
    obtain ⟨client, -, h⟩ := Option.bind_eq_some_iff.mp h
    split_ifs at h
    obtain rfl := Option.some.inj h
    exact .inl (quiet_setClient fun _ _ => rfl)
  | start j => exact .inr (.inr ⟨j, moves_start h⟩)
  | forward j => exact .inr (.inr ⟨j, moves_forward h⟩)
  | forwarded j =>
    obtain ⟨pump, q, hfound, hstage, hlive, rfl⟩ := forwarded_eq_some h
    refine .inr (.inr ⟨j, pump, _, [], [], hfound, rfl, .forwarded q hstage hlive, rfl,
      (List.append_nil _).symm, fun _ => rfl, fun c i => ?_⟩)
    rw [ite_self, List.append_nil]
    rfl
  | fail j gone =>
    obtain ⟨pump, q, hfound, hstage, -, h⟩ := fail_eq_some h
    have hquiet : Quiet s (s.setClient pump.client fun client =>
      { client with connected := client.connected && !gone }) := quiet_setClient fun _ _ => rfl
    exact .inr (.inr ⟨j, pump, _, _, _, moves_finish hfound (by rw [hstage]; rfl) (by rw [hstage]; rfl)
      hquiet rfl h⟩)
  | unwind j =>
    obtain ⟨pump, q, hfound, hopen, -, hq, h⟩ := unwind_eq_some h
    exact .inr (.inr ⟨j, pump, _, _, _, moves_finish hfound hopen hq (.refl s) rfl h⟩)

end Moves

section Wiring

/-- Each pump with a queue is registered there for its prefix while it is in its `try`, and its queue
is no other pump's. -/
structure Wired (s : Hub P) : Prop where
  maxsize : 0 < s.bus.queueMaxsize
  fresh : s.bus.Fresh
  registered : ∀ (i : Nat) pump q, s.pumps[i]? = some pump → pump.stage.queue? = some q →
    ∃ v, s.bus.subscription q = some v ∧
      v.registered = if pump.stage.isOpen then [pump.topicPrefix] else []
  distinct : ∀ (i j : Nat) pump pump' q, s.pumps[i]? = some pump → s.pumps[j]? = some pump' →
    pump.stage.queue? = some q → pump'.stage.queue? = some q → i = j

theorem Wired.quiet (hw : s.Wired) (h : Quiet s s') : s'.Wired := by
  have hback : ∀ (j : Nat) pump' q, s'.pumps[j]? = some pump' → pump'.stage.queue? = some q →
      ∃ pump, s.pumps[j]? = some pump ∧ pump'.topicPrefix = pump.topicPrefix ∧
        pump'.stage = pump.stage := by
    intro j pump' q hj hq
    obtain hcreated | hlt := h.added j pump' hj
    · rw [hcreated] at hq
      cases hq
    · obtain ⟨other, hother, -, htopic, hstage, -⟩ := h.kept j _ (List.getElem?_eq_getElem hlt)
      obtain rfl := Option.some.inj (hother.symm.trans hj)
      exact ⟨_, List.getElem?_eq_getElem hlt, htopic, hstage⟩
  refine ⟨h.bus ▸ hw.maxsize, h.bus ▸ hw.fresh, fun i pump' q hi hq => ?_,
    fun i j a b q hi hj ha hb => ?_⟩
  · obtain ⟨pump, hpump, htopic, hstage⟩ := hback i pump' q hi hq
    rw [h.bus, htopic, hstage]
    exact hw.registered i pump q hpump (hstage ▸ hq)
  · obtain ⟨a', ha', -, hstage⟩ := hback i a q hi ha
    obtain ⟨b', hb', -, hstage'⟩ := hback j b q hj hb
    exact hw.distinct i j a' b' q ha' hb' (hstage ▸ ha) (hstage' ▸ hb)

/-- A call that takes no pump off its prefix. -/
theorem Wired.call {b : BusAction P} (hw : s.Wired) (hb : s.allows b = true)
    (h : s.call b = some s') : s'.Wired := by
  obtain ⟨bus, hbus, rfl⟩ := call_eq_some.mp h
  refine ⟨EventBus.step_queueMaxsize hbus ▸ hw.maxsize, EventBus.fresh_step hbus hw.fresh,
    fun i pump q hi hq => ?_, hw.distinct⟩
  obtain ⟨v, hv, hregistered⟩ := hw.registered i pump q hi hq
  have hkeeps : s.bus.KeepsRegistered bus q := by
    refine EventBus.keepsRegistered_step hbus ?_
    rintro r rfl
    have hown : s.isOwn q = true := isOwn_iff.mpr ⟨i, pump, hi, hq⟩
    simp [allows, hown] at hb
  obtain ⟨v', hv', hsame⟩ := hkeeps v hv
  exact ⟨v', hv', hsame.trans hregistered⟩

theorem Wired.lt_length (hw : s.Wired) (hpump : s.pumps[i]? = some pump)
    (hq : pump.stage.queue? = some q) : q < s.bus.queues.length := by
  obtain ⟨v, hv, -⟩ := hw.registered i pump q hpump hq
  exact (List.getElem?_eq_some_iff.mp (EventBus.subscription_eq_some.mp hv).1).1

section
variable {stage : PumpStage} {calls : List (BusAction P)} {events : List (BusEvent P)}
  {bus bus' : EventBus P}

/-- A pump calls nothing on another's queue. -/
theorem PumpMove.foreign (h : PumpMove bus pump stage calls events)
    (hq : pump.stage.queue? ≠ some q) : ∀ b ∈ calls, b ≠ .read q ∧ ∀ r, b ≠ .unsubscribe r q := by
  have hown : ∀ {q'}, pump.stage = .waiting q' ∨ pump.stage.queue? = some q' → q' ≠ q := by
    rintro q' (hstage | hq') rfl
    · exact hq (by rw [hstage]; rfl)
    · exact hq hq'
  intro b hb
  cases h with
  | start | skip | forwarded =>
    simp only [List.mem_singleton, List.not_mem_nil] at hb
    all_goals subst hb; exact ⟨fun h => (by cases h), fun _ h => (by cases h)⟩
  | forward q' _ _ hstage =>
    obtain rfl := List.mem_singleton.mp hb
    exact ⟨fun h => hown (.inl hstage) (BusAction.read.inj h), fun _ h => (by cases h)⟩
  | lose q' hstage =>
    obtain rfl | hb := List.mem_cons.mp hb
    · exact ⟨fun h => hown (.inl hstage) (BusAction.read.inj h), fun _ h => (by cases h)⟩
    · obtain rfl := List.mem_singleton.mp hb
      exact ⟨fun h => (by cases h), fun _ h => hown (.inl hstage) (BusAction.unsubscribe.inj h).2⟩
  | finish q' _ hq' =>
    obtain rfl := List.mem_singleton.mp hb
    exact ⟨fun h => (by cases h), fun _ h => hown (.inr hq') (BusAction.unsubscribe.inj h).2⟩

/-- A pump keeps its queue once it has one, and gets a new one when it starts. -/
theorem PumpMove.queue? (h : PumpMove bus pump stage calls events) (hq : stage.queue? = some q) :
    pump.stage.queue? = some q ∨ pump.stage = .created ∧ q = bus.queues.length := by
  cases h with
  | start h => exact .inr ⟨h, (Option.some.inj hq).symm⟩
  | skip => cases hq
  | forward q' _ _ h | lose q' h | forwarded q' h =>
    rw [h]
    exact .inl hq
  | finish q' _ hq' => exact .inl (hq'.trans hq)

theorem registered_unsubscribe {v : Subscription P} {topicPrefix : String}
    (hv : bus.subscription q = some v) (hregistered : v.registered = [topicPrefix])
    (h : bus.step (.unsubscribe topicPrefix q) = some bus') :
    ∃ v', bus'.subscription q = some v' ∧ v'.registered = [] := by
  obtain ⟨v', hv', heffect⟩ := EventBus.step_effect hv h
  refine ⟨v', hv', ?_⟩
  obtain rfl : v' = _ := heffect
  change (if q = q then _ else _) = []
  rw [if_pos rfl, hregistered]
  simp

theorem keepsRegistered_exec (h : exec EventBus.step bus calls = some bus')
    (hcalls : ∀ b ∈ calls, ∀ r, b ≠ .unsubscribe r q) : bus.KeepsRegistered bus' q := by
  induction calls generalizing bus with
  | nil =>
    obtain rfl := Option.some.inj h
    exact fun v hv => ⟨v, hv, rfl⟩
  | cons b calls ih =>
    obtain ⟨m, hm, hrest⟩ := exec_cons_iff.mp h
    rw [List.forall_mem_cons] at hcalls
    intro v hv
    obtain ⟨w, hw, hsame⟩ := EventBus.keepsRegistered_step hm hcalls.1 v hv
    obtain ⟨v', hv', hsame'⟩ := ih hrest hcalls.2 w hw
    exact ⟨v', hv', hsame'.trans hsame⟩

/-- A pump is registered from its start to its end. -/
theorem PumpMove.registered (h : PumpMove bus pump stage calls events) (hfresh : bus.Fresh)
    (hmax : 0 < bus.queueMaxsize) (hexec : exec EventBus.step bus calls = some bus')
    (hbefore : ∀ q, pump.stage.queue? = some q → ∃ v, bus.subscription q = some v ∧
      v.registered = if pump.stage.isOpen then [pump.topicPrefix] else [])
    (hq : stage.queue? = some q) : ∃ v, bus'.subscription q = some v ∧
      v.registered = if stage.isOpen then [pump.topicPrefix] else [] := by
  cases h with
  | start =>
    obtain rfl := Option.some.inj hexec
    obtain rfl := Option.some.inj hq
    exact ⟨_, EventBus.subscription_subscribe hfresh hmax, rfl⟩
  | skip => cases hq
  | forward q' _ _ h =>
    obtain rfl := Option.some.inj hq
    rw [h] at hbefore
    obtain ⟨v, hv, hregistered⟩ := hbefore q' rfl
    obtain ⟨v', hv', hsame⟩ := keepsRegistered_exec hexec (q := q')
      (List.forall_mem_singleton.mpr fun _ h => by cases h) v hv
    exact ⟨v', hv', hsame.trans hregistered⟩
  | lose q' h =>
    obtain rfl := Option.some.inj hq
    rw [h] at hbefore
    obtain ⟨v, hv, hregistered⟩ := hbefore q' rfl
    obtain ⟨m, hm, hrest⟩ := exec_cons_iff.mp hexec
    obtain ⟨w, hw, hsame⟩ := EventBus.keepsRegistered_step hm (fun _ h => by cases h) v hv
    obtain ⟨m', hm', hdone⟩ := exec_cons_iff.mp hrest
    obtain rfl := Option.some.inj hdone
    exact registered_unsubscribe hw (hsame.trans hregistered) hm'
  | forwarded q' h =>
    obtain rfl := Option.some.inj hexec
    obtain rfl := Option.some.inj hq
    rw [h] at hbefore
    exact hbefore q' rfl
  | finish q' hopen hq' =>
    obtain rfl := Option.some.inj hq
    obtain ⟨v, hv, hregistered⟩ := hbefore q' hq'
    obtain ⟨m, hm, hdone⟩ := exec_cons_iff.mp hexec
    obtain rfl := Option.some.inj hdone
    rw [if_pos hopen] at hregistered
    exact registered_unsubscribe hv hregistered hm

theorem Wired.moves (hw : s.Wired) (h : Moves s s' j pump stage calls events) : s'.Wired := by
  have hmax : ∀ {bus bus' : EventBus P} {calls}, exec EventBus.step bus calls = some bus' →
      0 < bus.queueMaxsize ∧ bus.Fresh → 0 < bus'.queueMaxsize ∧ bus'.Fresh := fun hexec h₀ =>
    exec_invariant (I := fun bus : EventBus P => 0 < bus.queueMaxsize ∧ bus.Fresh)
      (fun _ _ _ hs ha => ⟨EventBus.step_queueMaxsize ha ▸ hs.1, EventBus.fresh_step ha hs.2⟩) h₀ hexec
  have hbefore : ∀ {i : Nat} {pump' : Pump}, s'.pumps[i]? = some pump' →
      (j = i ∧ pump' = { pump with stage }) ∨ (j ≠ i ∧ s.pumps[i]? = some pump') := by
    intro i pump' hi
    rw [h.pumps] at hi
    obtain ⟨rfl, old, hold, rfl⟩ | hother := of_setStage hi
    · obtain rfl := Option.some.inj (h.found.symm.trans hold)
      exact .inl ⟨rfl, rfl⟩
    · exact .inr hother
  refine ⟨(hmax h.bus ⟨hw.maxsize, hw.fresh⟩).1, (hmax h.bus ⟨hw.maxsize, hw.fresh⟩).2,
    fun i pump' q hi hq => ?_, fun i k a b q hi hk ha hb => ?_⟩
  · obtain ⟨rfl, rfl⟩ | ⟨hji, hother⟩ := hbefore hi
    · exact h.move.registered hw.fresh hw.maxsize h.bus
        (fun q hq => hw.registered j pump q h.found hq) hq
    · obtain ⟨v, hv, hregistered⟩ := hw.registered i pump' q hother hq
      have hforeign := h.move.foreign fun hq' => hji (hw.distinct j i pump pump' q h.found hother hq' hq)
      obtain ⟨v', hv', hsame⟩ := keepsRegistered_exec h.bus (fun b hb => (hforeign b hb).2) v hv
      exact ⟨v', hv', hsame.trans hregistered⟩
  · have hold : ∀ {i : Nat} {a : Pump}, s.pumps[i]? = some a → a.stage.queue? = some q → j ≠ i →
        stage.queue? = some q → False := by
      intro i a hi ha hji hq
      obtain hq' | ⟨-, rfl⟩ := h.move.queue? hq
      · exact hji (hw.distinct j i pump a q h.found hi hq' ha)
      · exact Nat.lt_irrefl _ (hw.lt_length hi ha)
    obtain ⟨rfl, rfl⟩ | ⟨hji, hi'⟩ := hbefore hi
    · obtain ⟨rfl, -⟩ | ⟨hjk, hk'⟩ := hbefore hk
      · rfl
      · exact (hold hk' hb hjk ha).elim
    · obtain ⟨rfl, rfl⟩ | ⟨hjk, hk'⟩ := hbefore hk
      · exact (hold hi' ha hji hb).elim
      · exact hw.distinct i k a b q hi' hk' ha hb

end

theorem Wired.step (hw : s.Wired) (h : s.step a = some s') : s'.Wired := by
  obtain hquiet | ⟨b, hallows, hcall⟩ | ⟨j, pump, stage, calls, events, hmoves⟩ := step_cases h
  · exact hw.quiet hquiet
  · exact hw.call hallows hcall
  · exact hw.moves hmoves

end Wiring

end Hub
end Leitstand
