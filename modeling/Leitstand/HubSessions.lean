import Leitstand.HubRuns

namespace Leitstand

open StepSystem

/-- What a connection comes to by its frames alone: the topics subscribed to, the endpoint's answers,
and whether it was left open. -/
structure Session (P : Type) where
  topics : List String := []
  answers : List (ServerFrame P)
  isOpen : Bool := true

namespace Session
variable {P : Type}

def receive (refusal : Json → String) (t : Session P) (raw : Json) : Session P :=
  match ClientFrame.validate raw with
  | some (.subscribe topic) =>
    if topic ∈ t.topics then t else { t with topics := t.topics ++ [topic] }
  | some (.unsubscribe topic) => { t with topics := t.topics.filter (· ≠ topic) }
  | some .pong => t
  | some .ping => { t with answers := t.answers ++ [.pong] }
  | none => match errorRequestId raw with
    | some requestId =>
      { t with answers := t.answers ++ [.error requestId "bad_frame" (refusal raw)] }
    | none => { t with isOpen := false }

def ofFrames (settings : HubSettings) (frames : List Json) : Session P :=
  frames.foldl (receive settings.refusal) { answers := [.hello settings.version] }

end Session

/-- The frames that a connection sent in a run. -/
def framesOf {P : Type} (c : Nat) (acts : List (HubAction P)) : List Json :=
  acts.filterMap fun
    | .receive c' raw => if c' = c then some raw else none
    | _ => none

/-- The frames that the endpoint itself handed to the socket. -/
def Client.answers {P : Type} (client : Client P) : List (ServerFrame P) :=
  client.sent.filterMap fun (sender, frame) => if sender = .endpoint then some frame else none

namespace Hub
variable {P : Type} {s s' : Hub P} {c d i j n : Nat} {client client' : Client P} {topic : String}
  {a : HubAction P} {acts past : List (HubAction P)} {settings : HubSettings} {t : Session P}
  {interrupted interrupted' : Prop}

/-- A connection is where its session is while it serves, and it only leaves for a reason. -/
structure Conforms (t : Session P) (interrupted : Prop) (client : Client P) : Prop where
  answers : client.answers <+: t.answers
  serving : client.stage.serves = true → client.subs.rows.map Prod.fst = t.topics ∧
    client.answers = t.answers ∧ t.isOpen = true
  leaving : client.stage.serves = false → t.isOpen = false ∨ client.connected = false ∨ interrupted

/-- A change that the session does not see. -/
structure Carries (client client' : Client P) : Prop where
  answers : client'.answers = client.answers
  subs : client'.subs = client.subs
  connected : client.connected = false → client'.connected = false
  serves : client'.stage.serves = client.stage.serves ∨
    client'.stage.serves = false ∧ client'.connected = false

theorem Carries.refl (client : Client P) : Carries client client := ⟨rfl, rfl, id, .inl rfl⟩

theorem Conforms.carry (h : Conforms t interrupted client) (hcarry : Carries client client')
    (himp : interrupted → interrupted') : Conforms t interrupted' client' where
  answers := hcarry.answers ▸ h.answers
  serving := by
    intro hserves
    obtain hsame | ⟨hnot, -⟩ := hcarry.serves
    · obtain ⟨htopics, hanswers, hopen⟩ := h.serving (hsame ▸ hserves)
      exact ⟨hcarry.subs ▸ htopics, hcarry.answers.trans hanswers, hopen⟩
    · rw [hserves] at hnot
      cases hnot
  leaving := by
    intro hserves
    obtain hsame | ⟨-, hlost⟩ := hcarry.serves
    · obtain hclosed | hlost | hinterrupted := h.leaving (hsame ▸ hserves)
      · exact .inl hclosed
      · exact .inr (.inl (hcarry.connected hlost))
      · exact .inr (.inr (himp hinterrupted))
    · exact .inr (.inl hlost)

theorem answers_say (sender : Sender) (frame : ServerFrame P) (hsender : sender ≠ .endpoint) :
    (client.say sender frame).answers = client.answers := by
  unfold Client.say Client.answers
  rw [List.filterMap_append]
  simp [hsender]

theorem answers_endpoint (frame : ServerFrame P) :
    (client.say .endpoint frame).answers = client.answers ++ [frame] := by
  unfold Client.say Client.answers
  rw [List.filterMap_append]
  rfl

theorem Carries.trans {client'' : Client P} (h : Carries client client')
    (h' : Carries client' client'') : Carries client client'' where
  answers := h'.answers.trans h.answers
  subs := h'.subs.trans h.subs
  connected := fun hlost => h'.connected (h.connected hlost)
  serves := by
    obtain hsame | ⟨hnot, hlost⟩ := h.serves
    · rw [← hsame]
      exact h'.serves
    · obtain hsame' | hleft := h'.serves
      · exact .inr ⟨hsame'.trans hnot, h'.connected hlost⟩
      · exact .inr hleft

/-- The connections are those from before, each carried by the change. -/
structure CarriesAll (s s' : Hub P) : Prop where
  length : s'.clients.length = s.clients.length
  carries : ∀ (d : Nat) client', s'.clients[d]? = some client' →
    ∃ client, s.clients[d]? = some client ∧ Carries client client'

theorem CarriesAll.trans {s'' : Hub P} (h : CarriesAll s s') (h' : CarriesAll s' s'') :
    CarriesAll s s'' where
  length := h'.length.trans h.length
  carries := by
    intro d client'' hd
    obtain ⟨client', hclient', hcarry'⟩ := h'.carries d client'' hd
    obtain ⟨client, hclient, hcarry⟩ := h.carries d client' hclient'
    exact ⟨client, hclient, hcarry.trans hcarry'⟩

theorem carriesAll_of_eq (h : s'.clients = s.clients) : CarriesAll s s' := by
  refine ⟨by rw [h], fun d client hd => ?_⟩
  rw [h] at hd
  exact ⟨client, hd, .refl client⟩

theorem carriesAll_setClient {f : Client P → Client P}
    (h : ∀ client, s.clients[c]? = some client → Carries client (f client)) :
    CarriesAll s (s.setClient c f) := by
  refine ⟨List.length_modify _ _ _, fun d client' hd => ?_⟩
  rw [clients_setClient] at hd
  split_ifs at hd with hcd
  · subst hcd
    obtain ⟨client, hclient, rfl⟩ := Option.map_eq_some_iff.mp hd
    exact ⟨client, hclient, h client hclient⟩
  · exact ⟨client', hd, .refl client'⟩

theorem connected_eq (h : s.clients[c]? = some client) : s.connected c = client.connected := by
  unfold connected
  rw [h, Option.any_some]

theorem carriesAll_disconnect : CarriesAll s (s.disconnect c) :=
  carriesAll_setClient fun _ _ => ⟨rfl, rfl, fun _ => rfl, .inl rfl⟩

theorem carriesAll_setHeartbeat {beat : HeartbeatStage} : CarriesAll s (s.setHeartbeat c beat) :=
  carriesAll_setClient fun _ _ => ⟨rfl, rfl, id, .inl rfl⟩

/-- A connection that is lost may leave. -/
theorem carriesAll_leave (h : s.connected c = false) : CarriesAll s (s.leave c) := by
  have hleave : CarriesAll s (s.setClient c fun client => { client with stage := .leaving }) :=
    carriesAll_setClient fun client hclient =>
      ⟨rfl, rfl, id, .inr ⟨rfl, (connected_eq hclient).symm.trans h⟩⟩
  exact ⟨hleave.length, hleave.carries⟩

theorem carriesAll_resume (h : s.stageOf c = some .answering) : CarriesAll s (s.resume c) := by
  unfold resume
  split_ifs with hconnected
  · refine carriesAll_setClient fun client hclient => ⟨rfl, rfl, id, .inl ?_⟩
    obtain ⟨other, hother, hstage⟩ := stageOf_eq_some.mp h
    obtain rfl := Option.some.inj (hclient.symm.trans hother)
    rw [hstage]
    rfl
  · exact carriesAll_leave (Bool.eq_false_iff.mpr hconnected)

theorem connected_disconnect (h : s.stageOf c = some .answering) :
    (s.disconnect c).connected c = false := by
  obtain ⟨client, hclient, -⟩ := stageOf_eq_some.mp h
  exact connected_eq (clients_setClient_self hclient)

/-- What is no frame of a client, no interruption and no new connection. -/
def IsInner : HubAction P → Prop
  | .receive _ _ | .interrupt _ | .connect _ _ => False
  | _ => True

theorem clients_finish {topicPrefix : String} {q : Nat} (h : s.finish i topicPrefix q = some s') :
    s'.clients = s.clients := by
  obtain ⟨bus, -, rfl⟩ := finish_eq_some h
  rfl

theorem carriesAll_step (ha : IsInner a) (h : s.step a = some s') : CarriesAll s s' := by
  cases a with
  | receive | interrupt | connect => exact ha.elim
  | bus b =>
    dsimp only [step] at h
    split_ifs at h
    obtain ⟨bus, -, rfl⟩ := call_eq_some.mp h
    exact carriesAll_of_eq rfl
  | answered c =>
    dsimp only [step] at h
    split_ifs at h with hstage
    obtain rfl := Option.some.inj h
    exact carriesAll_resume hstage
  | unanswered c =>
    dsimp only [step] at h
    split_ifs at h with hstage
    obtain rfl := Option.some.inj h
    exact carriesAll_disconnect.trans (carriesAll_leave (connected_disconnect hstage))
  | beat c =>
    obtain ⟨-, -, -, -, rfl⟩ := whileServing_eq_some h
    split_ifs
    · have hsaid : CarriesAll s (s.setClient c (·.say .heartbeat .ping)) :=
        carriesAll_setClient fun _ _ => ⟨answers_say _ _ (fun h => by cases h), rfl, id, .inl rfl⟩
      exact hsaid.trans carriesAll_setHeartbeat
    · exact carriesAll_setHeartbeat
  | beaten c =>
    obtain ⟨-, -, -, -, rfl⟩ := whileServing_eq_some h
    exact carriesAll_setHeartbeat
  | unbeaten c | timeout c =>
    obtain ⟨-, -, -, -, rfl⟩ := whileServing_eq_some h
    exact carriesAll_disconnect.trans carriesAll_setHeartbeat
  | stop c =>
    dsimp only [step] at h
    split_ifs at h
    obtain rfl := Option.some.inj h
    exact carriesAll_setHeartbeat
  | close c =>
    obtain ⟨client, hclient, h⟩ := Option.bind_eq_some_iff.mp h
    split_ifs at h with hclose
    obtain rfl := Option.some.inj h
    rw [Bool.and_eq_true, decide_eq_true_eq] at hclose
    refine carriesAll_setClient fun other hother => ⟨rfl, rfl, id, .inl ?_⟩
    obtain rfl := Option.some.inj (hclient.symm.trans hother)
    rw [hclose.1]
    rfl
  | start i =>
    obtain ⟨pump, -, -, ⟨-, rfl⟩ | ⟨-, rfl⟩⟩ := start_eq_some h
    · exact carriesAll_of_eq rfl
    · exact carriesAll_of_eq rfl
  | forward i =>
    obtain ⟨pump, q, _, event, bus, -, -, -, -, -, -, ⟨-, rfl⟩ | ⟨-, h⟩⟩ := forward_eq_some h
    · have hsaid : CarriesAll s (s.setClient pump.client (·.say (.pump i) (.event event))) :=
        carriesAll_setClient fun _ _ => ⟨answers_say _ _ (fun h => by cases h), rfl, id, .inl rfl⟩
      exact ⟨hsaid.length, hsaid.carries⟩
    · obtain ⟨bus', -, rfl⟩ := finish_eq_some h
      exact carriesAll_of_eq rfl
  | forwarded i =>
    obtain ⟨pump, q, -, -, -, rfl⟩ := forwarded_eq_some h
    exact carriesAll_of_eq rfl
  | fail i gone =>
    obtain ⟨pump, q, -, -, -, h⟩ := fail_eq_some h
    have hlost : CarriesAll s (s.setClient pump.client fun client =>
        { client with connected := client.connected && !gone }) :=
      carriesAll_setClient fun client _ =>
        ⟨rfl, rfl, fun h => (congrArg (· && !gone) h).trans rfl, .inl rfl⟩
    exact hlost.trans (carriesAll_of_eq (clients_finish h))
  | unwind i =>
    obtain ⟨pump, q, -, -, -, -, h⟩ := unwind_eq_some h
    exact carriesAll_of_eq (clients_finish h)

/-- Only the connection `c` may have changed. -/
structure OnlyClient (s s' : Hub P) (c : Nat) : Prop where
  length : s'.clients.length = s.clients.length
  others : ∀ d : Nat, c ≠ d → s'.clients[d]? = s.clients[d]?

theorem OnlyClient.trans {s'' : Hub P} (h : OnlyClient s s' c) (h' : OnlyClient s' s'' c) :
    OnlyClient s s'' c :=
  ⟨h'.length.trans h.length, fun d hd => (h'.others d hd).trans (h.others d hd)⟩

theorem onlyClient_setClient (f : Client P → Client P) : OnlyClient s (s.setClient c f) c :=
  ⟨List.length_modify _ _ _, fun _ hd => (clients_setClient f).trans (if_neg hd)⟩

theorem onlyClient_leave : OnlyClient s (s.leave c) c :=
  have h : OnlyClient s (s.setClient c fun client => { client with stage := .leaving }) c :=
    onlyClient_setClient _
  ⟨h.length, h.others⟩

theorem onlyClient_resume : OnlyClient s (s.resume c) c := by
  unfold resume
  split_ifs
  · exact onlyClient_setClient _
  · exact onlyClient_leave

theorem onlyClient_answer (frame : ServerFrame P) : OnlyClient s (s.answer c frame) c := by
  unfold answer
  split_ifs
  · exact onlyClient_setClient _
  · exact onlyClient_leave

theorem onlyClient_subscribe : OnlyClient s (s.subscribe c topic) c := by
  unfold subscribe
  split
  · exact ⟨rfl, fun _ _ => rfl⟩
  · have h : OnlyClient s (s.setClient c fun client =>
        { client with subs := client.subs.upsert (topic, s.pumps.length) fun _ => true }) c :=
      onlyClient_setClient _
    exact ⟨h.length, h.others⟩

theorem onlyClient_unsubscribe : OnlyClient s (s.unsubscribe c topic) c := by
  unfold unsubscribe
  split
  · exact ⟨rfl, fun _ _ => rfl⟩
  · have h : OnlyClient s (s.setClient c fun client =>
        { client with subs := client.subs.erase topic }) c := onlyClient_setClient _
    exact ⟨h.length, h.others⟩

theorem onlyClient_receive (raw : Json) : OnlyClient s (s.receive c raw) c := by
  unfold receive
  split
  · exact onlyClient_subscribe.trans onlyClient_resume
  · exact onlyClient_unsubscribe.trans onlyClient_resume
  · exact onlyClient_resume
  · exact onlyClient_answer _
  · split
    · exact onlyClient_answer _
    · exact onlyClient_leave

/-- A connection that serves is where its session is. -/
structure Serves (t : Session P) (client : Client P) : Prop where
  topics : client.subs.rows.map Prod.fst = t.topics
  answers : client.answers = t.answers
  isOpen : t.isOpen = true

theorem clients_leave (h : s.clients[c]? = some client) :
    (s.leave c).clients[c]? = some { client with stage := .leaving } :=
  clients_setClient_self (s := s.cancel _) h

theorem conforms_resume (hclient : s.clients[c]? = some client) (ht : Serves t client) :
    ∃ client', (s.resume c).clients[c]? = some client' ∧ Conforms t interrupted client' := by
  unfold resume
  split_ifs with hconnected
  · refine ⟨_, clients_setClient_self hclient, ?_, fun _ => ⟨ht.topics, ht.answers, ht.isOpen⟩,
      fun h => by cases h⟩
    exact ht.answers ▸ List.prefix_rfl
  · refine ⟨_, clients_leave hclient, ?_, fun h => (by cases h), fun _ => .inr (.inl ?_)⟩
    · exact ht.answers ▸ List.prefix_rfl
    · rw [connected_eq hclient] at hconnected
      exact Bool.eq_false_iff.mpr hconnected

theorem conforms_answer (frame : ServerFrame P) (hclient : s.clients[c]? = some client)
    (ht : Serves t client) : ∃ client', (s.answer c frame).clients[c]? = some client' ∧
      Conforms { t with answers := t.answers ++ [frame] } interrupted client' := by
  unfold answer
  split_ifs with hconnected
  · have hanswers : (client.say .endpoint frame).answers = t.answers ++ [frame] := by
      rw [answers_endpoint, ht.answers]
    refine ⟨_, clients_setClient_self hclient, ?_, fun _ => ⟨ht.topics, hanswers, ht.isOpen⟩,
      fun h => by cases h⟩
    exact hanswers ▸ List.prefix_rfl
  · refine ⟨_, clients_leave hclient, ?_, fun h => (by cases h), fun _ => .inr (.inl ?_)⟩
    · exact (ht.answers ▸ List.prefix_rfl : client.answers <+: t.answers).trans (List.prefix_append _ _)
    · rw [connected_eq hclient] at hconnected
      exact Bool.eq_false_iff.mpr hconnected

theorem serves_subscribe (hclient : s.clients[c]? = some client) (ht : Serves t client) :
    ∃ client', (s.subscribe c topic).clients[c]? = some client' ∧
      Serves (if topic ∈ t.topics then t else { t with topics := t.topics ++ [topic] }) client' := by
  unfold subscribe
  rw [subsOf_eq hclient]
  split
  · rename_i row hrow
    obtain ⟨hmem, rfl⟩ := Table.find?_eq_some_iff.mp hrow
    rw [if_pos (ht.topics ▸ List.mem_map_of_mem hmem)]
    exact ⟨client, hclient, ht⟩
  · rename_i hnone
    have hnew : topic ∉ t.topics := by
      rw [← ht.topics]
      rintro hmem
      obtain ⟨row, hrow, hkey⟩ := List.mem_map.mp hmem
      exact Table.find?_eq_none_iff.mp hnone row hrow hkey
    rw [if_neg hnew]
    refine ⟨_, clients_setClient_self hclient, ?_, ht.answers, ht.isOpen⟩
    have hrows : (client.subs.upsert (topic, s.pumps.length) fun _ => true).rows =
        client.subs.rows ++ [(topic, s.pumps.length)] := rows_upsert_new hnone
    change (client.subs.upsert _ _).rows.map Prod.fst = t.topics ++ [topic]
    rw [hrows, List.map_append, ht.topics]
    rfl

theorem serves_unsubscribe (hclient : s.clients[c]? = some client) (ht : Serves t client) :
    ∃ client', (s.unsubscribe c topic).clients[c]? = some client' ∧
      Serves { t with topics := t.topics.filter (· ≠ topic) } client' := by
  unfold unsubscribe
  rw [subsOf_eq hclient]
  split
  · rename_i hnone
    refine ⟨client, hclient, ?_, ht.answers, ht.isOpen⟩
    change _ = t.topics.filter _
    rw [← ht.topics, eq_comm, List.filter_eq_self]
    intro key hkey
    obtain ⟨row, hrow, rfl⟩ := List.mem_map.mp hkey
    exact decide_eq_true (Table.find?_eq_none_iff.mp hnone row hrow)
  · rename_i key k hrow
    refine ⟨_, clients_setClient_self (s := s.cancel [k]) hclient, ?_, ht.answers, ht.isOpen⟩
    change (client.subs.rows.filter _).map Prod.fst = t.topics.filter _
    rw [← ht.topics, List.filter_map]
    rfl

/-- A frame takes the connection to where it takes the session. -/
theorem conforms_receive (raw : Json) (hclient : s.clients[c]? = some client)
    (ht : Serves t client) : ∃ client', (s.receive c raw).clients[c]? = some client' ∧
      Conforms (t.receive s.settings.refusal raw) interrupted client' := by
  unfold receive Session.receive
  cases ClientFrame.validate raw with
  | some frame =>
    cases frame with
    | subscribe topic =>
      obtain ⟨client', hclient', ht'⟩ := serves_subscribe hclient ht
      exact conforms_resume hclient' ht'
    | unsubscribe topic =>
      obtain ⟨client', hclient', ht'⟩ := serves_unsubscribe hclient ht
      exact conforms_resume hclient' ht'
    | pong => exact conforms_resume hclient ht
    | ping => exact conforms_answer _ hclient ht
  | none =>
    cases errorRequestId raw with
    | some requestId => exact conforms_answer _ hclient ht
    | none =>
      refine ⟨_, clients_leave hclient, ?_, fun h => (by cases h), fun _ => .inl rfl⟩
      exact ht.answers ▸ List.prefix_rfl

/-- Where each connection stands after a run. -/
structure Tracked (past : List (HubAction P)) (s : Hub P) : Prop where
  none : ∀ c : Nat, s.clients.length ≤ c → framesOf c past = []
  clients : ∀ (c : Nat) client, s.clients[c]? = some client →
    Conforms (Session.ofFrames s.settings (framesOf c past)) (.interrupt c ∈ past) client

theorem framesOf_concat (past : List (HubAction P)) (a : HubAction P) :
    framesOf c (past ++ [a]) = framesOf c past ++ framesOf c [a] := List.filterMap_append

theorem framesOf_inner (ha : IsInner a ∨ ∀ raw, a ≠ .receive c raw) :
    framesOf c (past ++ [a]) = framesOf c past := by
  rw [framesOf_concat]
  cases a with
  | receive d raw =>
    have hne : d ≠ c := by
      rintro rfl
      exact ha.elim id fun h => h raw rfl
    simp [framesOf, hne]
  | _ => exact List.append_nil _

theorem Tracked.carry (hp : Tracked past s) (hsettings : s'.settings = s.settings)
    (h : CarriesAll s s') (hframes : ∀ c, framesOf c (past ++ [a]) = framesOf c past) :
    Tracked (past ++ [a]) s' where
  none := by
    intro c hc
    rw [hframes]
    exact hp.none c (h.length ▸ hc)
  clients := by
    intro c client' hc
    obtain ⟨client, hclient, hcarry⟩ := h.carries c client' hc
    rw [hframes, hsettings]
    exact (hp.clients c client hclient).carry hcarry fun hmem => List.mem_append_left _ hmem

theorem tracked_connect (hp : Tracked past s) (authorization : Option String)
    (subprotocols : List String) :
    Tracked (past ++ [.connect authorization subprotocols]) (s.connect authorization subprotocols) := by
  have hframes : ∀ c, framesOf c (past ++ [.connect authorization subprotocols]) = framesOf c past :=
    fun c => framesOf_inner (.inr fun _ h => by cases h)
  have hsame : Tracked (past ++ [.connect authorization subprotocols]) s :=
    hp.carry rfl (carriesAll_of_eq rfl) hframes
  unfold connect
  dsimp only
  split_ifs
  · refine ⟨fun c hc => hsame.none c (Nat.le_trans ?_ hc), fun c client hc => ?_⟩
    · change _ ≤ (s.clients ++ [_]).length
      rw [List.length_append]
      exact Nat.le_add_right _ _
    · change (s.clients ++ [_])[c]? = _ at hc
      rw [List.getElem?_append] at hc
      split_ifs at hc with hlt
      · exact hsame.clients c client hc
      · obtain rfl := List.mem_singleton.mp (List.mem_of_getElem? hc)
        rw [hsame.none c (Nat.le_of_not_lt hlt)]
        exact ⟨List.prefix_rfl, fun _ => ⟨rfl, rfl, rfl⟩, fun h => by cases h⟩
  · exact hsame

/-- A step of one connection. -/
theorem Tracked.only (hp : Tracked past s) (hclient : s.clients[c]? = some client)
    (hsettings : s'.settings = s.settings) (h : OnlyClient s s' c)
    (hframes : ∀ d, c ≠ d → framesOf d (past ++ [a]) = framesOf d past)
    (hown : ∃ client', s'.clients[c]? = some client' ∧
      Conforms (Session.ofFrames s.settings (framesOf c (past ++ [a])))
        (.interrupt c ∈ past ++ [a]) client') : Tracked (past ++ [a]) s' where
  none := by
    intro d hd
    rw [h.length] at hd
    have hcd : c ≠ d := by
      rintro rfl
      exact Nat.not_lt.mpr hd (List.getElem?_eq_some_iff.mp hclient).1
    rw [hframes d hcd]
    exact hp.none d hd
  clients := by
    intro d other hd
    rw [hsettings]
    by_cases hcd : c = d
    · subst hcd
      obtain ⟨client', hclient', hconforms⟩ := hown
      obtain rfl := Option.some.inj (hclient'.symm.trans hd)
      exact hconforms
    · rw [h.others d hcd] at hd
      rw [hframes d hcd]
      exact (hp.clients d other hd).carry (.refl other) fun hmem => List.mem_append_left _ hmem

theorem Tracked.step (hp : Tracked past s) (h : s.step a = some s') : Tracked (past ++ [a]) s' := by
  have hsettings := settings_step h
  by_cases hinner : IsInner a
  · exact hp.carry hsettings (carriesAll_step hinner h) fun c => framesOf_inner (.inl hinner)
  · cases a with
    | connect authorization subprotocols =>
      obtain rfl := Option.some.inj h
      exact tracked_connect hp authorization subprotocols
    | interrupt c =>
      dsimp only [Hub.step] at h
      split_ifs at h with hstage
      obtain rfl := Option.some.inj h
      obtain ⟨client, hclient, -⟩ := stageOf_eq_some.mp hstage
      have hframes : ∀ d, framesOf d (past ++ [.interrupt c]) = framesOf d past :=
        fun d => framesOf_inner (.inr fun _ h => by cases h)
      refine hp.only hclient hsettings onlyClient_leave (fun d _ => hframes d)
        ⟨_, clients_leave hclient, ?_, fun h => (by cases h), fun _ => .inr (.inr ?_)⟩
      · rw [hframes]
        exact (hp.clients c client hclient).answers
      · exact List.mem_append_right _ (List.mem_singleton_self _)
    | receive c raw =>
      dsimp only [Hub.step] at h
      split_ifs at h with hstage
      obtain rfl := Option.some.inj h
      obtain ⟨client, hclient, hreceiving⟩ := stageOf_eq_some.mp hstage
      obtain ⟨htopics, hanswers, hopen⟩ :=
        (hp.clients c client hclient).serving (by rw [hreceiving]; rfl)
      refine hp.only hclient hsettings (onlyClient_receive raw) (fun d hcd => ?_) ?_
      · exact framesOf_inner (.inr fun _ h => hcd (HubAction.receive.inj h).1)
      · have hown : framesOf c (past ++ [.receive c raw]) = framesOf c past ++ [raw] := by
          rw [framesOf_concat]
          simp [framesOf]
        unfold Session.ofFrames
        rw [hown, List.foldl_concat]
        exact conforms_receive raw hclient ⟨htopics, hanswers, hopen⟩
    | _ => exact absurd trivial hinner

/-- A connection's endpoint answers by the connection's own frames alone. While it serves, its table
holds the topics that they subscribed to, and it gave their answers in order; it leaves only where one
of them is neither valid nor has a `request_id` to answer to, the socket is lost, or its reading is
interrupted. -/
theorem endpoint_follows_frames (h : exec step (init settings n) acts = some s)
    (hclient : s.clients[c]? = some client) :
    let t : Session P := .ofFrames settings (framesOf c acts)
    client.answers <+: t.answers ∧
    (client.stage.serves = true → client.subs.rows.map Prod.fst = t.topics ∧
      client.answers = t.answers ∧ t.isOpen = true) ∧
    (client.stage.serves = false →
      t.isOpen = false ∨ client.connected = false ∨ .interrupt c ∈ acts) := by
  have htracked : Tracked acts s := exec_history ⟨fun _ _ => rfl, fun _ _ h => by cases h⟩
    (fun _ _ _ _ _ hp ha => hp.step ha) h
  have hconforms := htracked.clients c client hclient
  rw [settings_of_exec h] at hconforms
  exact ⟨hconforms.answers, hconforms.serving, hconforms.leaving⟩

/-- After a visit the table is empty again, and all that the endpoint said is its greeting. -/
theorem endpoint_follows_frames_visit : ∃ s client,
    exec step (init demoSettings 4 : Hub Nat) demoVisit = some s ∧ s.clients[0]? = some client ∧
    client.stage.serves = true ∧ client.subs.rows.map Prod.fst = [] ∧
    client.answers = [.hello "1.0"] := by
  obtain ⟨s, h, -⟩ := demoVisit_runs
  have hserves : ((exec step (init demoSettings 4 : Hub Nat) demoVisit).bind fun s =>
      s.clients[0]?.map fun client => client.stage.serves) = some true := by
    decide
  rw [h, Option.bind_some] at hserves
  obtain ⟨client, hclient, hserves⟩ := Option.map_eq_some_iff.mp hserves
  obtain ⟨-, hserving, -⟩ := endpoint_follows_frames h hclient
  obtain ⟨htopics, hanswers, -⟩ := hserving hserves
  exact ⟨s, client, h, hclient, hserves, htopics, hanswers⟩

end Hub
end Leitstand
