import Leitstand.HubOwnership

namespace Leitstand

open StepSystem

namespace Hub
variable {P : Type} {s s' : Hub P} {c d i j q n : Nat} {client : Client P} {pump : Pump}
  {a : HubAction P} {acts : List (HubAction P)} {settings : HubSettings} {stage : PumpStage}
  {calls : List (BusAction P)} {events : List (BusEvent P)}

/-- The bus is where the calls of the hub took it, the connections are owned and the pumps wired. -/
structure Sound (n : Nat) (s : Hub P) : Prop where
  wired : s.Wired
  owned : s.Owned
  calls : exec EventBus.step (.start n) s.calls = some s.bus

theorem sound_init (hn : 0 < n) : (init settings n : Hub P).Sound n where
  wired := by
    refine ⟨hn, fun _ _ => ⟨rfl, rfl⟩, fun i pump q h => ?_, fun i j pump pump' q h => ?_⟩
    · cases h
    · cases h
  owned := by
    refine ⟨fun client h => ?_, fun c client p i h => ?_, fun i pump h => ?_, fun c client h => ?_⟩
    · cases h
    · cases h
    · cases h
    · cases h
  calls := rfl

/-- What a step calls on the bus is logged. -/
theorem calls_step (h : s.step a = some s') : ∃ calls, s'.calls = s.calls ++ calls ∧
    exec EventBus.step s.bus calls = some s'.bus := by
  obtain hquiet | ⟨b, -, hcall⟩ | ⟨_, _, _, calls, _, hmoves⟩ := step_cases h
  · refine ⟨[], ?_, ?_⟩
    · rw [hquiet.calls, List.append_nil]
    · rw [hquiet.bus]
      rfl
  · obtain ⟨bus, hbus, rfl⟩ := call_eq_some.mp hcall
    exact ⟨[b], rfl, exec_singleton hbus⟩
  · exact ⟨calls, hmoves.log, hmoves.bus⟩

theorem Sound.step (hs : s.Sound n) (h : s.step a = some s') : s'.Sound n where
  wired := hs.wired.step h
  owned := hs.owned.step h
  calls := by
    obtain ⟨calls, hlog, hbus⟩ := calls_step h
    rw [hlog]
    exact exec_append_iff.mpr ⟨s.bus, hs.calls, hbus⟩

theorem sound_of_exec (hn : 0 < n) (h : exec step (init settings n) acts = some s) : s.Sound n :=
  exec_invariant (fun _ _ _ hs ha => hs.step ha) (sound_init hn) h

section Demo

def demoSettings : HubSettings :=
  { authBearerToken := some "secret", version := "1.0", refusal := fun _ => "unknown frame type" }

/-- A client subscribes, gets an event and unsubscribes; the events that follow find nobody. -/
def demoVisit : List (HubAction Nat) :=
  [.connect (some "Bearer secret") [],
    .receive 0 (.obj [("type", .str "subscribe"), ("topic", .str "p")]), .start 0,
    .bus (.publish "p/a" 7 true), .bus .run, .forward 0, .forwarded 0,
    .receive 0 (.obj [("type", .str "unsubscribe"), ("topic", .str "p")]),
    .bus (.publish "p/b" 8 true), .unwind 0, .bus (.publish "p/c" 9 true)]

theorem demoVisit_runs : ∃ s, exec step (init demoSettings 4 : Hub Nat) demoVisit = some s ∧
    s.pumps[0]? = some
      { client := 0, topicPrefix := "p", stage := .ended (some 0), cancelled := true } ∧
    s.eventsOf 0 0 = [{ topic := "p/a", payload := 7 }] :=
  ⟨_, rfl, rfl, rfl⟩

/-- The same client while it listens: one event was handed over and the next is on its way. -/
def demoListening : List (HubAction Nat) :=
  demoVisit.take 7 ++ [.bus (.publish "p/b" 8 true), .bus .run]

theorem demoListening_runs : ∃ s calls v,
    exec step (init demoSettings 4 : Hub Nat) demoListening = some s ∧
    s.pumps[0]? = some { client := 0, topicPrefix := "p", stage := .waiting 0 } ∧
    s.calls = .subscribe "p" :: calls ∧ .subscribe "p" ∉ calls ∧
    Throughout EventBus.step (fun _ bus _ => bus.hasRoom 0 = true) []
      ((EventBus.start 4).subscribe "p") calls ∧
    s.bus.subscription 0 = some v ∧ s.eventsOf 0 0 = [{ topic := "p/a", payload := 7 }] ∧
    v.backlog = [{ topic := "p/b", payload := 8 }] := by
  refine ⟨_, _, _, rfl, rfl, rfl, ?_, by decide, rfl, rfl, rfl⟩
  simp

end Demo

section Delivery

/-- A pump has a place in the calls where it subscribed, and handed to its own client what was taken
from its queue since, all of it while it goes on. -/
structure Follows (n : Nat) (s : Hub P) (i : Nat) (pump : Pump) : Prop where
  stranger : ∀ c, c ≠ pump.client → s.eventsOf c i = []
  idle : pump.stage.queue? = none → s.eventsOf pump.client i = []
  history : ∀ q, pump.stage.queue? = some q → ∃ past bus after v,
    s.calls = past ++ .subscribe pump.topicPrefix :: after ∧
    exec EventBus.step (.start n) past = some bus ∧ bus.queues.length = q ∧
    s.bus.subscription q = some v ∧ s.eventsOf pump.client i <+: v.inbox.taken ∧
    (pump.stage.isOpen = true → s.eventsOf pump.client i = v.inbox.taken)

/-- Events come from the pumps there are, each of which follows its queue. -/
structure Followed (n : Nat) (s : Hub P) : Prop where
  nobody : ∀ c i, s.pumps.length ≤ i → s.eventsOf c i = []
  pumps : ∀ (i : Nat) pump, s.pumps[i]? = some pump → Follows n s i pump

/-- Calls that do not read a pump's queue, and nothing handed over by it. -/
theorem Follows.untouched {pump' : Pump} (h : Follows n s i pump)
    (hclient : pump'.client = pump.client) (htopic : pump'.topicPrefix = pump.topicPrefix)
    (hstage : pump'.stage = pump.stage) (hevents : ∀ c, s'.eventsOf c i = s.eventsOf c i)
    (hlog : s'.calls = s.calls ++ calls) (hbus : exec EventBus.step s.bus calls = some s'.bus)
    (hforeign : ∀ q, pump.stage.queue? = some q → ∀ b ∈ calls, b ≠ .read q) :
    Follows n s' i pump' where
  stranger := by
    intro c hc
    rw [hevents]
    exact h.stranger c (hclient ▸ hc)
  idle := by
    intro hq
    rw [hevents, hclient]
    exact h.idle (hstage ▸ hq)
  history := by
    intro q hq
    rw [hstage] at hq ⊢
    obtain ⟨past, bus, after, v, hcalls, hpast, hlen, hv, hsome, hall⟩ := h.history q hq
    obtain ⟨v', hv', htaken⟩ := EventBus.taken_exec hv hbus (hforeign q hq)
    refine ⟨past, bus, after ++ calls, v', ?_, hpast, hlen, hv', ?_, ?_⟩
    · rw [hlog, hcalls, htopic, List.append_assoc]
      rfl
    · rw [hevents, hclient, htaken]
      exact hsome
    · rw [hevents, hclient, htaken]
      exact hall

theorem Followed.quiet (hf : s.Followed n) (h : Quiet s s') : s'.Followed n where
  nobody := by
    intro c i hi
    rw [h.events]
    refine hf.nobody c i (Nat.le_of_not_lt fun hlt => ?_)
    obtain ⟨pump', hpump', -⟩ := h.kept i _ (List.getElem?_eq_getElem hlt)
    exact Nat.not_lt.mpr hi (List.getElem?_eq_some_iff.mp hpump').1
  pumps := by
    intro i pump' hi
    by_cases hlt : i < s.pumps.length
    · have hold := List.getElem?_eq_getElem hlt
      obtain ⟨other, hother, hclient, htopic, hstage, -⟩ := h.kept i _ hold
      obtain rfl := Option.some.inj (hother.symm.trans hi)
      have hlog : s'.calls = s.calls ++ [] := by rw [h.calls, List.append_nil]
      have hbus : exec EventBus.step s.bus [] = some s'.bus := by rw [h.bus]; rfl
      exact (hf.pumps i _ hold).untouched hclient htopic hstage (fun c => h.events c i) hlog hbus
        fun _ _ _ hb => by cases hb
    · have hnone : ∀ c, s'.eventsOf c i = [] := fun c =>
        (h.events c i).trans (hf.nobody c i (Nat.le_of_not_lt hlt))
      have hcreated := (h.added i pump' hi).resolve_right hlt
      refine ⟨fun c _ => hnone c, fun _ => hnone _, fun q hq => ?_⟩
      rw [hcreated] at hq
      cases hq

theorem Followed.call {b : BusAction P} (hf : s.Followed n) (hb : s.allows b = true)
    (h : s.call b = some s') : s'.Followed n := by
  obtain ⟨bus, hbus, rfl⟩ := call_eq_some.mp h
  refine ⟨hf.nobody, fun i pump hi => ?_⟩
  refine (hf.pumps i pump hi).untouched rfl rfl rfl (fun _ => rfl) rfl (exec_singleton hbus) ?_
  intro q hq
  rw [List.forall_mem_singleton]
  rintro rfl
  have hown : s.isOwn q = true := isOwn_iff.mpr ⟨i, pump, hi, hq⟩
  simp [allows, hown] at hb

/-- A pump's own step. -/
theorem Follows.moves (hs : s.Sound n) (hf : Follows n s j pump)
    (h : Moves s s' j pump stage calls events) : Follows n s' j { pump with stage } := by
  have hown : s'.eventsOf pump.client j = s.eventsOf pump.client j ++ events := by
    rw [h.events, if_pos ⟨rfl, rfl⟩]
  refine ⟨fun c hc => ?_, fun hq => ?_, fun q hq => ?_⟩
  · rw [h.events, if_neg fun he => hc he.1, List.append_nil]
    exact hf.stranger c hc
  · have hmove := h.move
    change s'.eventsOf pump.client j = []
    rw [hown]
    cases hmove with
    | skip hstage =>
      rw [List.append_nil]
      exact hf.idle (by rw [hstage]; rfl)
    | start | forward | lose | forwarded | finish => cases hq
  · -- A pump that had its queue before goes on from what was taken from it then.
    have hcont : ∀ {v : Subscription P}, s'.bus.subscription q = some v →
        pump.stage.queue? = some q → s'.eventsOf pump.client j <+: v.inbox.taken →
        (stage.isOpen = true → s'.eventsOf pump.client j = v.inbox.taken) →
        ∃ past bus after v, s'.calls = past ++ .subscribe pump.topicPrefix :: after ∧
          exec EventBus.step (.start n) past = some bus ∧ bus.queues.length = q ∧
          s'.bus.subscription q = some v ∧ s'.eventsOf pump.client j <+: v.inbox.taken ∧
          (stage.isOpen = true → s'.eventsOf pump.client j = v.inbox.taken) := by
      intro v hv hq' hsome hall
      obtain ⟨past, bus, after, -, hcalls, hpast, hlen, -⟩ := hf.history q hq'
      refine ⟨past, bus, after ++ calls, v, ?_, hpast, hlen, hv, hsome, hall⟩
      rw [h.log, hcalls, List.append_assoc]
      rfl
    have hbus := h.bus
    have hmove := h.move
    cases hmove with
    | start hstage =>
      obtain rfl := Option.some.inj hq
      have hbus : s.bus.subscribe pump.topicPrefix = s'.bus := Option.some.inj hbus
      have hnone := hf.idle (by rw [hstage]; rfl)
      have hv : s'.bus.subscription s.bus.queues.length = some _ :=
        hbus ▸ EventBus.subscription_subscribe hs.wired.fresh hs.wired.maxsize
      refine ⟨s.calls, s.bus, [], _, h.log, hs.calls, rfl, hv, ?_, fun _ => ?_⟩
      · rw [hown, hnone]
        exact List.nil_prefix
      · rw [hown, hnone]
        rfl
    | skip => cases hq
    | forward q' inbox event hstage _ hinbox hevent =>
      obtain rfl := Option.some.inj hq
      have hq' : pump.stage.queue? = some q' := by rw [hstage]; rfl
      obtain ⟨-, -, -, v, -, -, -, hv, -, hall⟩ := hf.history q' hq'
      obtain ⟨m, hm, hdone⟩ := exec_cons_iff.mp hbus
      obtain rfl : m = s'.bus := Option.some.inj hdone
      obtain ⟨v', hv', htaken⟩ := EventBus.taken_read hv hinbox hevent hm
      have heq : s'.eventsOf pump.client j = v'.inbox.taken := by
        rw [hown, htaken, hall (by rw [hstage]; rfl)]
      exact hcont hv' hq' (heq ▸ List.prefix_rfl) fun _ => heq
    | lose q' hstage =>
      obtain rfl := Option.some.inj hq
      have hq' : pump.stage.queue? = some q' := by rw [hstage]; rfl
      obtain ⟨-, -, -, v, -, -, -, hv, hsome, -⟩ := hf.history q' hq'
      obtain ⟨m, hm, hrest⟩ := exec_cons_iff.mp hbus
      obtain ⟨w, hw, htaken⟩ := EventBus.taken_prefix hv hm
      obtain ⟨v', hv', htaken'⟩ := EventBus.taken_exec hw hrest
        (List.forall_mem_singleton.mpr fun h => by cases h)
      refine hcont hv' hq' ?_ fun h => by cases h
      rw [hown, List.append_nil, htaken']
      exact hsome.trans htaken
    | forwarded q' hstage =>
      obtain rfl := Option.some.inj hq
      have hq' : pump.stage.queue? = some q' := by rw [hstage]; rfl
      obtain ⟨-, -, -, v, -, -, -, hv, -, hall⟩ := hf.history q' hq'
      have heq : s'.eventsOf pump.client j = v.inbox.taken := by
        rw [hown, List.append_nil, hall (by rw [hstage]; rfl)]
      have hsame : s.bus = s'.bus := Option.some.inj hbus
      exact hcont (hsame ▸ hv) hq' (heq ▸ List.prefix_rfl) fun _ => heq
    | finish q' hopen hq' =>
      obtain rfl := Option.some.inj hq
      obtain ⟨-, -, -, v, -, -, -, hv, hsome, -⟩ := hf.history q' hq'
      obtain ⟨v', hv', htaken⟩ := EventBus.taken_exec hv hbus
        (List.forall_mem_singleton.mpr fun h => by cases h)
      refine hcont hv' hq' ?_ fun h => by cases h
      rw [hown, List.append_nil, htaken]
      exact hsome

theorem Followed.moves (hs : s.Sound n) (hf : s.Followed n)
    (h : Moves s s' j pump stage calls events) : s'.Followed n where
  nobody := by
    intro c i hi
    have hlen : s.pumps.length ≤ i := by
      by_contra hlt
      have hsome := h.pumps i
      rw [pumps_setStage, List.getElem?_eq_getElem (Nat.lt_of_not_le hlt),
        List.getElem?_eq_none hi] at hsome
      cases hsome
    have hij : i ≠ j := by
      rintro rfl
      exact Nat.not_lt.mpr hlen (List.getElem?_eq_some_iff.mp h.found).1
    rw [h.events, if_neg fun he => hij he.2, List.append_nil]
    exact hf.nobody c i hlen
  pumps := by
    intro i pump' hi
    rw [h.pumps] at hi
    obtain ⟨rfl, old, hold, rfl⟩ | ⟨hji, hold⟩ := of_setStage hi
    · obtain rfl := Option.some.inj (h.found.symm.trans hold)
      exact (hf.pumps j pump h.found).moves hs h
    · refine (hf.pumps i pump' hold).untouched rfl rfl rfl (fun c => ?_) h.log h.bus fun q hq b hb => ?_
      · rw [h.events, if_neg fun he => hji he.2.symm, List.append_nil]
      · refine (h.move.foreign (fun hq' => hji ?_) b hb).1
        exact hs.wired.distinct j i pump pump' q h.found hold hq' hq

theorem followed_of_exec (hn : 0 < n) (h : exec step (init settings n) acts = some s) :
    s.Followed n := by
  refine (exec_invariant (I := fun s : Hub P => s.Sound n ∧ s.Followed n) ?_ ⟨sound_init hn, ?_⟩ h).2
  · rintro s a s' ⟨hs, hf⟩ ha
    refine ⟨hs.step ha, ?_⟩
    obtain hquiet | ⟨b, hallows, hcall⟩ | ⟨j, pump, stage, calls, events, hmoves⟩ := step_cases ha
    · exact hf.quiet hquiet
    · exact hf.call hallows hcall
    · exact hf.moves hs hmoves
  · exact ⟨fun _ _ _ => rfl, fun i pump hi => by cases hi⟩

end Delivery

section Ownership

theorem settings_step (h : s.step a = some s') : s'.settings = s.settings := by
  obtain hquiet | ⟨b, -, hcall⟩ | ⟨_, _, _, _, _, hmoves⟩ := step_cases h
  · exact hquiet.settings
  · obtain ⟨bus, -, rfl⟩ := call_eq_some.mp hcall
    rfl
  · exact hmoves.settings

theorem settings_of_exec (h : exec step (init settings n) acts = some s) : s.settings = settings :=
  exec_invariant (I := fun s : Hub P => s.settings = settings)
    (fun _ _ _ hs ha => (settings_step ha).trans hs) rfl h

/-- All that a cancelled pump still does is to end. -/
theorem cancelled_step (h : s.step a = some s') (hi : s.pumps[i]? = some pump)
    (hcancelled : pump.cancelled = true) : ∃ pump', s'.pumps[i]? = some pump' ∧
      pump'.cancelled = true ∧ (pump'.stage = pump.stage ∨ pump'.stage.isEnded = true) ∧
      ∀ c, s'.eventsOf c i = s.eventsOf c i := by
  obtain hquiet | ⟨b, -, hcall⟩ | ⟨j, other, stage, calls, events, hmoves⟩ := step_cases h
  · obtain ⟨pump', hpump', -, -, hstage, hstill⟩ := hquiet.kept i pump hi
    exact ⟨pump', hpump', hstill hcancelled, .inl hstage, fun c => hquiet.events c i⟩
  · obtain ⟨bus, -, rfl⟩ := call_eq_some.mp hcall
    exact ⟨pump, hi, hcancelled, .inl rfl, fun _ => rfl⟩
  · by_cases hji : j = i
    · subst hji
      obtain rfl := Option.some.inj (hmoves.found.symm.trans hi)
      have hmove : stage.isEnded = true ∧ events = [] := by
        have hmove := hmoves.move
        cases hmove with
        | skip | finish => exact ⟨rfl, rfl⟩
        | start _ hlive | forward _ _ _ _ hlive | lose _ _ hlive | forwarded _ _ hlive =>
          rw [hcancelled] at hlive
          cases hlive
      refine ⟨{ other with stage }, (hmoves.pumps j).trans (setStage_self hi), hcancelled,
        .inr hmove.1, fun c => ?_⟩
      rw [hmoves.events, hmove.2, ite_self, List.append_nil]
    · refine ⟨pump, (hmoves.pumps i).trans ((setStage_ne hji).trans hi), hcancelled, .inl rfl,
        fun c => ?_⟩
      rw [hmoves.events, if_neg fun he => hji he.2.symm, List.append_nil]

/-- A cancelled pump can end. -/
theorem cancelled_ends (hi : s.pumps[i]? = some pump) (hcancelled : pump.cancelled = true)
    (hended : pump.stage.isEnded = false) : ∃ a s' pump', s.step a = some s' ∧
      s'.pumps[i]? = some pump' ∧ pump'.stage.isEnded = true := by
  have hunwind : ∀ q, pump.stage.isOpen = true → pump.stage.queue? = some q →
      ∃ a s' pump', s.step a = some s' ∧ s'.pumps[i]? = some pump' ∧ pump'.stage.isEnded = true := by
    intro q hopen hq
    refine ⟨.unwind i, ({ s with
      bus := s.bus.unsubscribe pump.topicPrefix q
      calls := s.calls ++ [.unsubscribe pump.topicPrefix q] } : Hub P).setStage i (.ended (some q)),
      _, ?_, setStage_self hi, rfl⟩
    change s.unwind i = _
    unfold unwind
    rw [hi, Option.bind_eq_bind, Option.bind_some, hopen, hcancelled, Bool.and_self, if_pos rfl,
      hq]
    rfl
  cases hstage : pump.stage with
  | created =>
    refine ⟨.start i, s.setStage i (.ended none), _, ?_, setStage_self hi, rfl⟩
    change s.start i = _
    unfold start
    rw [hi, Option.bind_eq_bind, Option.bind_some, hstage, if_neg (not_not.mpr rfl), hcancelled,
      if_pos rfl]
  | waiting q => exact hunwind q (by rw [hstage]; rfl) (by rw [hstage]; rfl)
  | sending q => exact hunwind q (by rw [hstage]; rfl) (by rw [hstage]; rfl)
  | ended q =>
    rw [hstage] at hended
    cases hended

/-- A connection was let in with its credential. Of its pumps only the one that its table holds for a
prefix is not cancelled, and only while its endpoint serves; a cancelled one hands over nothing more,
and can end. A pump's queue is registered for its prefix from its start to its end. Once an endpoint
has returned, all that it awaited has ended. -/
theorem pumps_owned (hn : 0 < n) (h : exec step (init settings n) acts = some s) :
    (∀ client ∈ s.clients, tokenAccepted settings.authBearerToken client.credential = true) ∧
    (∀ (i : Nat) pump, s.pumps[i]? = some pump →
      (pump.cancelled = false → ∃ client, s.clients[pump.client]? = some client ∧
        client.stage.serves = true ∧
        client.subs.find? pump.topicPrefix = some (pump.topicPrefix, i)) ∧
      (pump.cancelled = true →
        (∀ a s', s.step a = some s' → ∃ pump', s'.pumps[i]? = some pump' ∧
          pump'.cancelled = true ∧ (pump'.stage = pump.stage ∨ pump'.stage.isEnded = true) ∧
          ∀ c, s'.eventsOf c i = s.eventsOf c i) ∧
        (pump.stage.isEnded = false → ∃ a s' pump', s.step a = some s' ∧
          s'.pumps[i]? = some pump' ∧ pump'.stage.isEnded = true)) ∧
      ∀ q, pump.stage.queue? = some q → registrations q s.bus.consumers.rows =
        if pump.stage.isOpen then [pump.topicPrefix] else []) ∧
    ∀ (c : Nat) client, s.clients[c]? = some client → client.stage = .left →
      s.Gathered client := by
  have hs := sound_of_exec hn h
  refine ⟨?_, fun i pump hi => ⟨fun hlive => ?_, fun hcancelled => ⟨fun a s' ha => ?_, fun hended => ?_⟩,
      fun q hq => ?_⟩, hs.owned.left⟩
  · rw [← settings_of_exec h]
    exact hs.owned.credential
  · obtain ⟨client, hclient, hserves, hrow⟩ := hs.owned.live i pump hi hlive
    exact ⟨client, hclient, hserves, Table.find?_of_mem hrow⟩
  · exact cancelled_step ha hi hcancelled
  · exact cancelled_ends hi hcancelled hended
  · obtain ⟨v, hv, hregistered⟩ := hs.wired.registered i pump q hi hq
    exact (EventBus.subscription_eq_some.mp hv).2.1.trans hregistered

/-- The pump of a visit that is over is registered nowhere. -/
theorem pumps_owned_visit : ∃ s, exec step (init demoSettings 4 : Hub Nat) demoVisit = some s ∧
    (∀ client ∈ s.clients, tokenAccepted (some "secret") client.credential = true) ∧
    registrations 0 s.bus.consumers.rows = [] := by
  obtain ⟨s, h, hi, -⟩ := demoVisit_runs
  obtain ⟨hcredential, hpumps, -⟩ := pumps_owned (by decide) h
  exact ⟨s, h, hcredential, (hpumps 0 _ hi).2.2 0 rfl⟩

end Ownership

section Order

theorem matches_of_publishedTo {topicPrefix : String} {e : Enqueue P} {k : Nat}
    {after : List (BusAction P)} (h : e ∈ publishedTo topicPrefix k after) :
    topicMatches e.event.topic topicPrefix = true := by
  induction after with
  | nil => cases h
  | cons b after ih =>
    cases b with
    | publish t payload latch =>
      unfold publishedTo at h
      split_ifs at h with hm
      · obtain rfl | hrest := List.mem_cons.mp h
        · exact hm
        · exact ih hrest
      · exact ih h
    | unsubscribe r queue =>
      unfold publishedTo at h
      split_ifs at h with hk
      · cases h
      · exact ih h
    | subscribe | unlatch | run | read => exact ih h

/-- What a pump has to hand over: the latched values at its start, as many as fit, and what is
published on its prefix from then on. -/
def offered (n : Nat) (bus : EventBus P) (topicPrefix : String) (after : List (BusAction P)) :
    List (BusEvent P) :=
  (bus.snapshot topicPrefix).take n ++
    (publishedTo topicPrefix bus.queues.length after).map Enqueue.event

theorem matches_of_offered {bus : EventBus P} {topicPrefix : String} {after : List (BusAction P)}
    {event : BusEvent P} (h : event ∈ offered n bus topicPrefix after) :
    topicMatches event.topic topicPrefix = true := by
  obtain h | h := List.mem_append.mp h
  · obtain ⟨row, hrow, rfl⟩ := List.mem_map.mp (List.mem_of_mem_take h)
    exact (List.mem_filter.mp hrow).2
  · obtain ⟨e, he, rfl⟩ := List.mem_map.mp h
    exact matches_of_publishedTo he

/-- A client gets events from its own pumps only, each the events of its prefix that were latched when
it subscribed or published since, in that order and none twice. While a pump is open and every enqueue
to its queue has found room, none of them is missing: those not handed over yet are still on their
way. -/
theorem events_in_order (hn : 0 < n) (h : exec step (init settings n) acts = some s) :
    (∀ c i, s.eventsOf c i ≠ [] → ∃ pump, s.pumps[i]? = some pump ∧ pump.client = c ∧
      ∃ q, pump.stage.queue? = some q) ∧
    ∀ (i : Nat) pump q, s.pumps[i]? = some pump → pump.stage.queue? = some q →
      ∃ past bus after, s.calls = past ++ .subscribe pump.topicPrefix :: after ∧
        exec EventBus.step (.start n) past = some bus ∧ bus.queues.length = q ∧
        exec EventBus.step (bus.subscribe pump.topicPrefix) after = some s.bus ∧
        (s.eventsOf pump.client i).Sublist (offered n bus pump.topicPrefix after) ∧
        (∀ event ∈ s.eventsOf pump.client i,
          topicMatches event.topic pump.topicPrefix = true) ∧
        (pump.stage.isOpen = true →
          Throughout EventBus.step (fun _ bus b => b = .run → bus.hasRoom q = true) []
            (bus.subscribe pump.topicPrefix) after →
          ∃ v, s.bus.subscription q = some v ∧
            s.eventsOf pump.client i ++ v.backlog = offered n bus pump.topicPrefix after) := by
  have hs := sound_of_exec hn h
  have hf := followed_of_exec hn h
  refine ⟨fun c i hevents => ?_, fun i pump q hi hq => ?_⟩
  · have hlt : i < s.pumps.length := by
      by_contra hlt
      exact hevents (hf.nobody c i (Nat.le_of_not_lt hlt))
    have hi := List.getElem?_eq_getElem hlt
    have hfollows := hf.pumps i _ hi
    have hc : s.pumps[i].client = c := by
      by_contra hne
      exact hevents (hfollows.stranger c (Ne.symm hne))
    refine ⟨_, hi, hc, Option.ne_none_iff_exists'.mp fun hq => hevents ?_⟩
    rw [← hc]
    exact hfollows.idle hq
  · obtain ⟨past, bus, after, v, hcalls, hpast, rfl, hv, hsome, hall⟩ :=
      (hf.pumps i pump hi).history q hq
    obtain ⟨mid, hmid, hrest⟩ := exec_append_iff.mp (hcalls ▸ hs.calls)
    obtain rfl := Option.some.inj (hmid.symm.trans hpast)
    have hafter : exec EventBus.step (mid.subscribe pump.topicPrefix) after = some s.bus := hrest
    have hmax := EventBus.queueMaxsize_of_exec hpast
    have hsub : (mid.subscribe pump.topicPrefix).subscription mid.queues.length = some _ :=
      EventBus.subscription_subscribe (EventBus.fresh_of_exec hpast) (hmax ▸ hn)
    rw [hmax] at hsub
    have hlen : ((mid.snapshot pump.topicPrefix).take n).length ≤ n := List.length_take_le _ _
    have hmax' : (mid.subscribe pump.topicPrefix).queueMaxsize = n := hmax
    have hsublist : (s.eventsOf pump.client i).Sublist (offered n mid pump.topicPrefix after) := by
      obtain ⟨v', done, hv', hdone⟩ := exec_delivered hn hmax' hsub hlen hafter
      obtain rfl := Option.some.inj (hv'.symm.trans hv)
      have hdelivered : done.Sublist (publishedTo pump.topicPrefix mid.queues.length after) := by
        rw [← incoming_subscribed, hdone.order]
        exact List.sublist_append_left _ _
      refine hsome.sublist.trans ((List.sublist_append_left _ v'.inbox.items).trans ?_)
      exact hdone.contents.trans ((List.Sublist.refl _).append (hdelivered.map Enqueue.event))
    refine ⟨past, mid, after, hcalls, hpast, rfl, hafter, hsublist,
      fun event hevent => matches_of_offered (hsublist.subset hevent), fun hopen hroom => ⟨v, hv, ?_⟩⟩
    obtain ⟨v', hv', hlossless⟩ := EventBus.exec_lossless hn hmax' hsub hlen hroom hafter
    obtain rfl := Option.some.inj (hv'.symm.trans hv)
    rw [hall hopen, hlossless, incoming_subscribed]
    rfl

/-- While the client listens, the event handed over and the one on its way are what was offered; of
that, the client has the one handed over once it has unsubscribed. -/
theorem events_in_order_visit : (∃ s past bus after,
      exec step (init demoSettings 4 : Hub Nat) demoListening = some s ∧
      s.calls = past ++ .subscribe "p" :: after ∧ exec EventBus.step (.start 4) past = some bus ∧
      [{ topic := "p/a", payload := 7 }, { topic := "p/b", payload := 8 }] = offered 4 bus "p" after) ∧
    ∃ s past bus after, exec step (init demoSettings 4 : Hub Nat) demoVisit = some s ∧
      s.calls = past ++ .subscribe "p" :: after ∧ exec EventBus.step (.start 4) past = some bus ∧
      [{ topic := "p/a", payload := 7 }].Sublist (offered 4 bus "p" after) := by
  constructor
  · obtain ⟨s, calls, v, h, hi, hlog, honce, hroom, hv, hevents, hbacklog⟩ := demoListening_runs
    obtain ⟨past, bus, after, hcalls, hpast, -, -, -, -, hlossless⟩ :=
      (events_in_order (by decide) h).2 0 _ 0 hi rfl
    refine ⟨s, past, bus, after, h, hcalls, hpast, ?_⟩
    -- The pump subscribed with the first call and with no later one.
    obtain ⟨rfl, hsame⟩ | ⟨past', rfl, hlater⟩ := List.cons_eq_append_iff.mp (hlog.symm.trans hcalls)
    · obtain rfl := (List.cons.inj hsame).2
      obtain rfl := Option.some.inj hpast
      obtain ⟨v', hv', hall⟩ := hlossless rfl (throughout_iff.mpr fun pre a rest m he hm _ =>
        throughout_iff.mp hroom pre a rest m he hm)
      obtain rfl := Option.some.inj (hv'.symm.trans hv)
      rw [← hall, hevents, hbacklog]
      rfl
    · rw [hlater] at honce
      exact absurd (List.mem_append_right _ List.mem_cons_self) honce
  · obtain ⟨s, h, hi, hevents⟩ := demoVisit_runs
    obtain ⟨past, bus, after, hcalls, hpast, -, -, hsublist, -⟩ :=
      (events_in_order (by decide) h).2 0 _ 0 hi rfl
    exact ⟨s, past, bus, after, h, hcalls, hpast, hevents ▸ hsublist⟩

end Order

end Hub
end Leitstand
