import Leitstand.HubTasks

namespace Leitstand

open StepSystem

namespace Hub
variable {P : Type} {s s' : Hub P} {c d i j q : Nat} {client : Client P} {pump : Pump}
  {topic : String} {a : HubAction P}

/-- Once its endpoint has returned, all that a connection awaits has ended. -/
def Gathered (s : Hub P) (client : Client P) : Prop :=
  client.heartbeat = .ended ∧
    ∀ row ∈ client.subs.rows, ∃ pump, s.pumps[row.2]? = some pump ∧ pump.stage.isEnded = true

/-- A connection was let in with its credential. While its endpoint serves, its pumps that are not
cancelled are those in its table, and once it leaves none is. -/
structure Owned (s : Hub P) : Prop where
  credential : ∀ client ∈ s.clients,
    tokenAccepted s.settings.authBearerToken client.credential = true
  subs : ∀ (c : Nat) client p i, s.clients[c]? = some client → (p, i) ∈ client.subs.rows →
    ∃ pump, s.pumps[i]? = some pump ∧ pump.client = c ∧ pump.topicPrefix = p ∧
      pump.cancelled = !client.stage.serves
  live : ∀ (i : Nat) pump, s.pumps[i]? = some pump → pump.cancelled = false →
    ∃ client, s.clients[pump.client]? = some client ∧ client.stage.serves = true ∧
      (pump.topicPrefix, i) ∈ client.subs.rows
  left : ∀ (c : Nat) client, s.clients[c]? = some client → client.stage = .left →
    s.Gathered client

section Steps

/-- The pumps keep to their connections, and one that has ended stays so. -/
def KeepsPumps (s s' : Hub P) : Prop :=
  (∀ (j : Nat) pump, s.pumps[j]? = some pump → ∃ pump', s'.pumps[j]? = some pump' ∧
    pump'.client = pump.client ∧ pump'.topicPrefix = pump.topicPrefix ∧
    pump'.cancelled = pump.cancelled ∧ (pump.stage.isEnded = true → pump'.stage.isEnded = true)) ∧
  s'.pumps.length = s.pumps.length

theorem KeepsPumps.of_eq (h : s'.pumps = s.pumps) : KeepsPumps s s' := by
  refine ⟨fun j pump hj => ⟨pump, ?_, rfl, rfl, rfl, id⟩, by rw [h]⟩
  rw [h]
  exact hj

theorem KeepsPumps.back (h : KeepsPumps s s') {pump' : Pump} (hj : s'.pumps[j]? = some pump') :
    ∃ pump, s.pumps[j]? = some pump ∧ pump'.client = pump.client ∧
      pump'.topicPrefix = pump.topicPrefix ∧ pump'.cancelled = pump.cancelled := by
  have hlt : j < s.pumps.length := h.2 ▸ (List.getElem?_eq_some_iff.mp hj).1
  obtain ⟨pump', hpump', hclient, htopic, hcancelled, -⟩ := h.1 j _ (List.getElem?_eq_getElem hlt)
  obtain rfl := Option.some.inj (hpump'.symm.trans hj)
  exact ⟨_, List.getElem?_eq_getElem hlt, hclient, htopic, hcancelled⟩

theorem KeepsPumps.trans {s'' : Hub P} (h : KeepsPumps s s') (h' : KeepsPumps s' s'') :
    KeepsPumps s s'' := by
  refine ⟨fun j pump hj => ?_, h'.2.trans h.2⟩
  obtain ⟨b, hb, hclient, htopic, hcancelled, hended⟩ := h.1 j pump hj
  obtain ⟨c, hc, hclient', htopic', hcancelled', hended'⟩ := h'.1 j b hb
  exact ⟨c, hc, hclient'.trans hclient, htopic'.trans htopic, hcancelled'.trans hcancelled,
    fun hj => hended' (hended hj)⟩

theorem keepsPumps_setStage {stage : PumpStage} (hpump : s.pumps[i]? = some pump)
    (hended : pump.stage.isEnded = false ∨ stage.isEnded = true) :
    KeepsPumps s (s.setStage i stage) := by
  refine ⟨fun j old hj => ?_, List.length_modify _ _ _⟩
  rw [pumps_setStage, hj, Option.map_some]
  refine ⟨_, rfl, ?_⟩
  split_ifs with hij
  · subst hij
    obtain rfl := Option.some.inj (hpump.symm.trans hj)
    exact ⟨rfl, rfl, rfl, fun h => hended.resolve_left (by rw [h]; decide)⟩
  · exact ⟨rfl, rfl, rfl, id⟩

/-- A step of a pump, or of the heartbeat or the endpoint while it goes on as before. -/
theorem Owned.keep (ho : s.Owned) (hpumps : KeepsPumps s s') (hsettings : s'.settings = s.settings)
    (hlength : s'.clients.length = s.clients.length)
    (hclients : ∀ (d : Nat) client, s.clients[d]? = some client →
      ∃ client', s'.clients[d]? = some client' ∧ client'.credential = client.credential ∧
        client'.subs = client.subs ∧ client'.stage.serves = client.stage.serves ∧
        (client'.stage = .left → s'.Gathered client')) : s'.Owned := by
  have hback : ∀ (d : Nat) client', s'.clients[d]? = some client' →
      ∃ client, s.clients[d]? = some client ∧ client'.credential = client.credential ∧
        client'.subs = client.subs ∧ client'.stage.serves = client.stage.serves ∧
        (client'.stage = .left → s'.Gathered client') := by
    intro d client' hd
    have hlt : d < s.clients.length := hlength ▸ (List.getElem?_eq_some_iff.mp hd).1
    obtain ⟨other, hother, hrest⟩ := hclients d _ (List.getElem?_eq_getElem hlt)
    obtain rfl := Option.some.inj (hother.symm.trans hd)
    exact ⟨_, List.getElem?_eq_getElem hlt, hrest⟩
  refine ⟨fun client' hmem => ?_, fun d client' p i hd hrow => ?_, fun i pump' hi hlive => ?_,
    fun d client' hd hleft => ?_⟩
  · obtain ⟨d, hd⟩ := List.mem_iff_getElem?.mp hmem
    obtain ⟨client, hclient, hcredential, -⟩ := hback d client' hd
    rw [hsettings, hcredential]
    exact ho.credential client (List.mem_of_getElem? hclient)
  · obtain ⟨client, hclient, -, hsubs, hserves, -⟩ := hback d client' hd
    obtain ⟨pump, hpump, hc, hp, hcancelled⟩ := ho.subs d client p i hclient (hsubs ▸ hrow)
    obtain ⟨pump', hpump', hc', hp', hcancelled', -⟩ := hpumps.1 i pump hpump
    exact ⟨pump', hpump', hc'.trans hc, hp'.trans hp, by rw [hcancelled', hcancelled, hserves]⟩
  · obtain ⟨pump, hpump, hc, hp, hcancelled⟩ := hpumps.back hi
    obtain ⟨client, hclient, hserves, hrow⟩ := ho.live i pump hpump (hcancelled.symm.trans hlive)
    obtain ⟨client', hclient', -, hsubs, hserves', -⟩ := hclients _ client hclient
    refine ⟨client', hc ▸ hclient', hserves'.trans hserves, ?_⟩
    rw [hsubs, hp]
    exact hrow
  · obtain ⟨client, -, -, -, -, hgathered⟩ := hback d client' hd
    exact hgathered hleft

theorem Gathered.keep (h : s.Gathered client) (hpumps : KeepsPumps s s') : s'.Gathered client := by
  refine ⟨h.1, fun row hrow => ?_⟩
  obtain ⟨pump, hpump, hended⟩ := h.2 row hrow
  obtain ⟨pump', hpump', -, -, -, hkeep⟩ := hpumps.1 row.2 pump hpump
  exact ⟨pump', hpump', hkeep hended⟩

/-- A step that touches no connection. -/
theorem Owned.keep_clients (ho : s.Owned) (hpumps : KeepsPumps s s')
    (hsettings : s'.settings = s.settings) (hclients : s'.clients = s.clients) : s'.Owned := by
  refine ho.keep hpumps hsettings (by rw [hclients]) fun d client hd => ?_
  rw [hclients]
  exact ⟨client, hd, rfl, rfl, rfl, fun hleft => (ho.left d client hd hleft).keep hpumps⟩

/-- A step of one connection that changes neither its table nor whether it serves. -/
theorem Owned.setClient {f : Client P → Client P} (ho : s.Owned)
    (hclient : s.clients[c]? = some client) (hcredential : (f client).credential = client.credential)
    (hsubs : (f client).subs = client.subs)
    (hserves : (f client).stage.serves = client.stage.serves)
    (hleft : (f client).stage = .left → s.Gathered (f client)) : (s.setClient c f).Owned := by
  have hpumps : KeepsPumps s (s.setClient c f) := .of_eq rfl
  refine ho.keep hpumps rfl (List.length_modify _ _ _) fun d other hd => ?_
  rw [clients_setClient]
  split_ifs with hcd
  · subst hcd
    obtain rfl := Option.some.inj (hclient.symm.trans hd)
    rw [hd, Option.map_some]
    exact ⟨_, rfl, hcredential, hsubs, hserves, fun h => (hleft h).keep hpumps⟩
  · exact ⟨other, hd, rfl, rfl, rfl, fun h => (ho.left d other hd h).keep hpumps⟩

/-- The pump of a row is in no other connection's table. -/
theorem Owned.client_eq (ho : s.Owned) {client' : Client P} {p p' : String}
    (hc : s.clients[c]? = some client) (hd : s.clients[d]? = some client')
    (hrow : (p, i) ∈ client.subs.rows) (hrow' : (p', i) ∈ client'.subs.rows) : c = d ∧ p = p' := by
  obtain ⟨pump, hpump, hclient, htopic, -⟩ := ho.subs c client p i hc hrow
  obtain ⟨pump', hpump', hclient', htopic', -⟩ := ho.subs d client' p' i hd hrow'
  obtain rfl := Option.some.inj (hpump.symm.trans hpump')
  exact ⟨hclient.symm.trans hclient', htopic.symm.trans htopic'⟩

end Steps

section Table

/-- Only pumps of the connection `c` are changed or added, and none that has ended starts again. -/
structure ChangesPumps (s s' : Hub P) (c : Nat) : Prop where
  others : ∀ (j : Nat) pump, s.pumps[j]? = some pump → pump.client ≠ c → s'.pumps[j]? = some pump
  changed : ∀ (j : Nat) pump', s'.pumps[j]? = some pump' → pump'.client = c ∨ s.pumps[j]? = some pump'
  ended : ∀ (j : Nat) pump, s.pumps[j]? = some pump → pump.stage.isEnded = true →
    ∃ pump', s'.pumps[j]? = some pump' ∧ pump'.stage.isEnded = true

/-- A change of one connection's table or of whether it serves, and of its own pumps. -/
theorem Owned.change {f : Client P → Client P} (ho : s.Owned) (hclient : s.clients[c]? = some client)
    (hsettings : s'.settings = s.settings) (hclients : s'.clients = (s.setClient c f).clients)
    (hcredential : (f client).credential = client.credential) (hpumps : ChangesPumps s s' c)
    (hsubs : ∀ p i, (p, i) ∈ (f client).subs.rows → ∃ pump, s'.pumps[i]? = some pump ∧
      pump.client = c ∧ pump.topicPrefix = p ∧ pump.cancelled = !(f client).stage.serves)
    (hlive : ∀ (i : Nat) pump, s'.pumps[i]? = some pump → pump.client = c → pump.cancelled = false →
      (f client).stage.serves = true ∧ (pump.topicPrefix, i) ∈ (f client).subs.rows)
    (hleft : (f client).stage ≠ .left) : s'.Owned := by
  have hback : ∀ (d : Nat) client', s'.clients[d]? = some client' →
      (c = d ∧ client' = f client) ∨ (c ≠ d ∧ s.clients[d]? = some client') := by
    intro d client' hd
    rw [hclients, clients_setClient] at hd
    by_cases hcd : c = d
    · subst hcd
      rw [if_pos rfl, hclient, Option.map_some] at hd
      exact .inl ⟨rfl, (Option.some.inj hd).symm⟩
    · rw [if_neg hcd] at hd
      exact .inr ⟨hcd, hd⟩
  refine ⟨fun client' hmem => ?_, fun d client' p i hd hrow => ?_, fun i pump' hi hlive' => ?_,
    fun d client' hd hleft' => ?_⟩
  · obtain ⟨d, hd⟩ := List.mem_iff_getElem?.mp hmem
    rw [hsettings]
    obtain ⟨-, rfl⟩ | ⟨-, hother⟩ := hback d client' hd
    · rw [hcredential]
      exact ho.credential client (List.mem_of_getElem? hclient)
    · exact ho.credential client' (List.mem_of_getElem? hother)
  · obtain ⟨rfl, rfl⟩ | ⟨hcd, hother⟩ := hback d client' hd
    · exact hsubs p i hrow
    · obtain ⟨pump, hpump, hclient', hrest⟩ := ho.subs d client' p i hother hrow
      exact ⟨pump, hpumps.others i pump hpump (hclient' ▸ Ne.symm hcd), hclient', hrest⟩
  · by_cases hc : pump'.client = c
    · obtain ⟨hserves, hrow⟩ := hlive i pump' hi hc hlive'
      refine ⟨f client, ?_, hserves, hrow⟩
      rw [hclients, hc]
      exact clients_setClient_self hclient
    · obtain ⟨other, hother, hrest⟩ :=
        ho.live i pump' ((hpumps.changed i pump' hi).resolve_left hc) hlive'
      refine ⟨other, ?_, hrest⟩
      rw [hclients, clients_setClient, if_neg (Ne.symm hc)]
      exact hother
  · obtain ⟨-, rfl⟩ | ⟨-, hother⟩ := hback d client' hd
    · exact absurd hleft' hleft
    · obtain ⟨hbeat, hrows⟩ := ho.left d client' hother hleft'
      refine ⟨hbeat, fun row hrow => ?_⟩
      obtain ⟨pump, hpump, hended⟩ := hrows row hrow
      exact hpumps.ended row.2 pump hpump hended

/-- Cancelling pumps of one connection. -/
theorem changesPumps_cancel {tasks : List Nat} (hs : s'.pumps = (s.cancel tasks).pumps)
    (htasks : ∀ j ∈ tasks, ∃ pump, s.pumps[j]? = some pump ∧ pump.client = c) :
    ChangesPumps s s' c := by
  have hafter : ∀ (j : Nat) pump, s.pumps[j]? = some pump →
      s'.pumps[j]? = some (if j ∈ tasks then { pump with cancelled := true } else pump) := by
    intro j pump hj
    rw [hs, pumps_cancel, hj, Option.map_some]
  refine ⟨fun j pump hj hne => ?_, fun j pump' hj => ?_, fun j pump hj hended => ⟨_, hafter j pump hj, ?_⟩⟩
  · rw [hafter j pump hj, if_neg]
    intro hmem
    obtain ⟨own, hown, hc⟩ := htasks j hmem
    obtain rfl := Option.some.inj (hj.symm.trans hown)
    exact hne hc
  · rw [hs, pumps_cancel] at hj
    obtain ⟨pump, hpump, rfl⟩ := Option.map_eq_some_iff.mp hj
    split_ifs with hmem
    · obtain ⟨own, hown, hc⟩ := htasks j hmem
      obtain rfl := Option.some.inj (hpump.symm.trans hown)
      exact .inl hc
    · exact .inr hpump
  · split_ifs
    · exact hended
    · exact hended

/-- Leaving cancels the pumps in the connection's table, and no others. -/
theorem Owned.leave (ho : s.Owned) (hclient : s.clients[c]? = some client) : (s.leave c).Owned := by
  have htasks : ∀ j ∈ (s.subsOf c).rows.map (·.2), ∃ pump, s.pumps[j]? = some pump ∧ pump.client = c := by
    intro j hj
    rw [subsOf_eq hclient] at hj
    obtain ⟨⟨p, _⟩, hrow, rfl⟩ := List.mem_map.mp hj
    obtain ⟨pump, hpump, hc, -⟩ := ho.subs c client p _ hclient hrow
    exact ⟨pump, hpump, hc⟩
  have hpumps : ∀ j : Nat, (s.leave c).pumps[j]? = _ := fun j =>
    pumps_cancel ((s.subsOf c).rows.map (·.2))
  rw [subsOf_eq hclient] at hpumps
  refine ho.change hclient rfl rfl rfl (changesPumps_cancel rfl htasks) (fun p i hrow => ?_)
    (fun i pump' hi hc hlive => ?_) (fun h => by cases h)
  · obtain ⟨pump, hpump, hc, hp, -⟩ := ho.subs c client p i hclient hrow
    rw [hpumps, hpump, Option.map_some, if_pos (List.mem_map.mpr ⟨(p, i), hrow, rfl⟩)]
    exact ⟨_, rfl, hc, hp, rfl⟩
  · rw [hpumps] at hi
    obtain ⟨pump, hpump, rfl⟩ := Option.map_eq_some_iff.mp hi
    by_cases hmem : i ∈ client.subs.rows.map (·.2)
    · rw [if_pos hmem] at hlive
      cases hlive
    · rw [if_neg hmem] at hlive hc
      obtain ⟨other, hother, -, hrow⟩ := ho.live i pump hpump hlive
      rw [hc] at hother
      obtain rfl := Option.some.inj (hclient.symm.trans hother)
      exact absurd (List.mem_map.mpr ⟨_, hrow, rfl⟩) hmem

theorem rows_upsert_new {t : Table (Prod.fst : String × Nat → String)} {row : String × Nat}
    (h : t.find? row.1 = none) : (t.upsert row fun _ => true).rows = t.rows ++ [row] := by
  unfold Table.upsert
  split
  · rfl
  · rename_i h'
    rw [h] at h'
    cases h'

/-- A new pump is in the table of its connection. -/
theorem Owned.subscribe (ho : s.Owned) (hclient : s.clients[c]? = some client)
    (hserves : client.stage.serves = true) : (s.subscribe c topic).Owned := by
  unfold Hub.subscribe
  split
  · exact ho
  rename_i hnew
  rw [subsOf_eq hclient] at hnew
  have hrows : (client.subs.upsert (topic, s.pumps.length) fun _ => true).rows =
      client.subs.rows ++ [(topic, s.pumps.length)] := rows_upsert_new hnew
  have hold : ∀ (j : Nat) pump, s.pumps[j]? = some pump →
      (s.pumps ++ [{ client := c, topicPrefix := topic }])[j]? = some pump := fun j pump hj =>
    (List.getElem?_append_left (List.getElem?_eq_some_iff.mp hj).1).trans hj
  have hlast : ∀ (j : Nat) pump, (s.pumps ++ [{ client := c, topicPrefix := topic }])[j]? = some pump →
      s.pumps[j]? = some pump ∨ j = s.pumps.length ∧ pump = { client := c, topicPrefix := topic } := by
    intro j pump hj
    rw [List.getElem?_append] at hj
    split_ifs at hj with hlt
    · exact .inl hj
    · obtain ⟨hsingle, -⟩ := List.getElem?_eq_some_iff.mp hj
      rw [List.length_singleton] at hsingle
      exact .inr ⟨by omega, List.mem_singleton.mp (List.mem_of_getElem? hj)⟩
  have hpumps : ChangesPumps s { s with
      pumps := s.pumps ++ [{ client := c, topicPrefix := topic }] } c := by
    refine ⟨fun j pump hj _ => hold j pump hj, fun j pump' hj => ?_,
      fun j pump hj hended => ⟨pump, hold j pump hj, hended⟩⟩
    obtain h | ⟨-, rfl⟩ := hlast j pump' hj
    · exact .inr h
    · exact .inl rfl
  refine ho.change hclient rfl rfl rfl ⟨hpumps.others, hpumps.changed, hpumps.ended⟩
    (fun p i hrow => ?_) (fun i pump hi hc hlive => ⟨hserves, ?_⟩) ?_
  · change (p, i) ∈ (client.subs.upsert _ _).rows at hrow
    rw [hrows, List.mem_append, List.mem_singleton] at hrow
    obtain hrow | hrow := hrow
    · obtain ⟨pump, hpump, hrest⟩ := ho.subs c client p i hclient hrow
      exact ⟨pump, hold i pump hpump, hrest⟩
    · obtain ⟨rfl, rfl⟩ := Prod.mk.inj hrow
      refine ⟨_, List.getElem?_concat_length, rfl, rfl, ?_⟩
      change false = !client.stage.serves
      rw [hserves]
      rfl
  · change _ ∈ (client.subs.upsert _ _).rows
    rw [hrows]
    obtain h | ⟨rfl, rfl⟩ := hlast i pump hi
    · obtain ⟨other, hother, -, hrow⟩ := ho.live i pump h hlive
      rw [hc] at hother
      obtain rfl := Option.some.inj (hclient.symm.trans hother)
      exact List.mem_append_left _ hrow
    · exact List.mem_append_right _ (List.mem_singleton_self _)
  · intro hleft
    change client.stage = .left at hleft
    rw [hleft] at hserves
    cases hserves

/-- The pump that is taken from the table is cancelled. -/
theorem Owned.unsubscribe (ho : s.Owned) (hclient : s.clients[c]? = some client)
    (hserves : client.stage.serves = true) : (s.unsubscribe c topic).Owned := by
  unfold Hub.unsubscribe
  split
  · exact ho
  rename_i key k hfind
  rw [subsOf_eq hclient] at hfind
  obtain ⟨hrow, hkey⟩ := Table.find?_eq_some_iff.mp hfind
  obtain rfl : key = topic := hkey
  obtain ⟨own, hown, hc, -⟩ := ho.subs c client key k hclient hrow
  have htasks : ∀ j ∈ [k], ∃ pump, s.pumps[j]? = some pump ∧ pump.client = c :=
    List.forall_mem_singleton.mpr ⟨own, hown, hc⟩
  have hpumps : ∀ j : Nat, (s.cancel [k]).pumps[j]? = _ := fun j => pumps_cancel [k]
  refine ho.change (s := s) hclient rfl rfl rfl (changesPumps_cancel rfl htasks) (fun p i hmem => ?_)
    (fun i pump' hi hc hlive => ⟨hserves, ?_⟩) ?_
  · obtain ⟨hrow', hne⟩ := List.mem_filter.mp hmem
    obtain ⟨pump, hpump, hrest⟩ := ho.subs c client p i hclient hrow'
    change ∃ pump, (s.cancel [k]).pumps[i]? = some pump ∧ _
    rw [hpumps, hpump, Option.map_some, if_neg]
    · exact ⟨pump, rfl, hrest⟩
    · intro hk
      obtain rfl := List.mem_singleton.mp hk
      exact of_decide_eq_true hne (ho.client_eq hclient hclient hrow' hrow).2
  · change (s.cancel [k]).pumps[i]? = some pump' at hi
    rw [hpumps] at hi
    obtain ⟨pump, hpump, rfl⟩ := Option.map_eq_some_iff.mp hi
    by_cases hik : i ∈ [k]
    · rw [if_pos hik] at hlive
      cases hlive
    · rw [if_neg hik] at hlive hc ⊢
      obtain ⟨other, hother, -, hrow'⟩ := ho.live i pump hpump hlive
      rw [hc] at hother
      obtain rfl := Option.some.inj (hclient.symm.trans hother)
      refine List.mem_filter.mpr ⟨hrow', decide_eq_true ?_⟩
      intro hp
      have heq := List.inj_on_of_nodup_map client.subs.nodup hrow' hrow hp
      exact hik (List.mem_singleton.mpr (Prod.mk.inj heq).2)
  · intro hleft
    change client.stage = .left at hleft
    rw [hleft] at hserves
    cases hserves

end Table

section Step

/-- A connection whose endpoint serves. -/
def Serving (s : Hub P) (c : Nat) : Prop :=
  ∃ client, s.clients[c]? = some client ∧ client.stage.serves = true

theorem serving_of_stageOf {stage : EndpointStage} (h : s.stageOf c = some stage)
    (hserves : stage.serves = true) : s.Serving c := by
  obtain ⟨client, hclient, rfl⟩ := stageOf_eq_some.mp h
  exact ⟨client, hclient, hserves⟩

/-- A change of a serving connection that leaves its table, and goes on serving. -/
theorem Owned.goOn {f : Client P → Client P} (ho : s.Owned) (hc : s.Serving c)
    (hf : ∀ client : Client P, (f client).credential = client.credential ∧
      (f client).subs = client.subs ∧
      (client.stage.serves = true → (f client).stage.serves = true)) : (s.setClient c f).Owned := by
  obtain ⟨client, hclient, hserves⟩ := hc
  obtain ⟨hcredential, hsubs, hgoes⟩ := hf client
  have hstill := hgoes hserves
  refine ho.setClient hclient hcredential hsubs (hstill.trans hserves.symm) fun hleft => ?_
  rw [hleft] at hstill
  cases hstill

theorem Serving.setClient {f : Client P → Client P} (h : s.Serving c)
    (hf : ∀ client : Client P, client.stage.serves = true → (f client).stage.serves = true) :
    (s.setClient c f).Serving c := by
  obtain ⟨client, hclient, hserves⟩ := h
  exact ⟨f client, clients_setClient_self hclient, hf client hserves⟩

theorem Serving.subscribe (h : s.Serving c) : (s.subscribe c topic).Serving c := by
  unfold Hub.subscribe
  split
  · exact h
  · exact h.setClient fun _ h => h

theorem Serving.unsubscribe (h : s.Serving c) : (s.unsubscribe c topic).Serving c := by
  unfold Hub.unsubscribe
  split
  · exact h
  · exact Serving.setClient (s := s.cancel _) h fun _ h => h

theorem Owned.leaves (ho : s.Owned) (hc : s.Serving c) : (s.leave c).Owned := by
  obtain ⟨client, hclient, -⟩ := hc
  exact ho.leave hclient

theorem Owned.resume (ho : s.Owned) (hc : s.Serving c) : (s.resume c).Owned := by
  unfold Hub.resume
  split_ifs
  · exact ho.goOn hc fun _ => ⟨rfl, rfl, fun _ => rfl⟩
  · exact ho.leaves hc

theorem Owned.answer (frame : ServerFrame P) (ho : s.Owned) (hc : s.Serving c) :
    (s.answer c frame).Owned := by
  unfold Hub.answer
  split_ifs
  · exact ho.goOn hc fun _ => ⟨rfl, rfl, fun _ => rfl⟩
  · exact ho.leaves hc

theorem Owned.receive (raw : Json) (ho : s.Owned) (hc : s.Serving c) : (s.receive c raw).Owned := by
  have ⟨client, hclient, hserves⟩ := hc
  unfold Hub.receive
  split
  · exact (ho.subscribe hclient hserves).resume (Serving.subscribe hc)
  · exact (ho.unsubscribe hclient hserves).resume (Serving.unsubscribe hc)
  · exact ho.resume hc
  · exact ho.answer _ hc
  · split
    · exact ho.answer _ hc
    · exact ho.leaves hc

theorem Owned.connect (ho : s.Owned) (authorization : Option String) (subprotocols : List String) :
    (s.connect authorization subprotocols).Owned := by
  unfold Hub.connect
  dsimp only
  split_ifs with haccepted
  · have hlast : ∀ (d : Nat) client, (s.clients ++ [{
        credential := (bearerToken authorization).or (wsCredential subprotocols)
        subprotocol := selectedSubprotocol subprotocols
        sent := [(.endpoint, .hello s.settings.version)] }])[d]? = some client →
        s.clients[d]? = some client ∨ client = {
          credential := (bearerToken authorization).or (wsCredential subprotocols)
          subprotocol := selectedSubprotocol subprotocols
          sent := [(.endpoint, .hello s.settings.version)] } := by
      intro d client hd
      rw [List.getElem?_append] at hd
      split_ifs at hd
      · exact .inl hd
      · exact .inr (List.mem_singleton.mp (List.mem_of_getElem? hd))
    refine ⟨fun client hmem => ?_, fun d client p i hd hrow => ?_, fun i pump hi hlive => ?_,
      fun d client hd hleft => ?_⟩
    · obtain hmem | hmem := List.mem_append.mp hmem
      · exact ho.credential client hmem
      · obtain rfl := List.mem_singleton.mp hmem
        exact haccepted
    · obtain h | rfl := hlast d client hd
      · exact ho.subs d client p i h hrow
      · cases hrow
    · obtain ⟨client, hclient, hrest⟩ := ho.live i pump hi hlive
      exact ⟨client, (List.getElem?_append_left (List.getElem?_eq_some_iff.mp hclient).1).trans hclient,
        hrest⟩
    · obtain h | rfl := hlast d client hd
      · exact ho.left d client h hleft
      · cases hleft
  · exact ho

theorem Owned.finish {topicPrefix : String} (ho : s.Owned) (hpump : s.pumps[i]? = some pump)
    (h : s.finish i topicPrefix q = some s') : s'.Owned := by
  obtain ⟨bus, -, rfl⟩ := finish_eq_some h
  have hended : pump.stage.isEnded = false ∨ (PumpStage.ended (some q)).isEnded = true := .inr rfl
  exact ho.keep_clients ((KeepsPumps.of_eq rfl).trans (keepsPumps_setStage hpump hended)) rfl rfl

theorem Owned.setStage {stage : PumpStage} (ho : s.Owned) (hpump : s.pumps[i]? = some pump)
    (hended : pump.stage.isEnded = false ∨ stage.isEnded = true) : (s.setStage i stage).Owned :=
  ho.keep_clients (keepsPumps_setStage hpump hended) rfl rfl

/-- A change of a connection that its endpoint does not notice. -/
theorem Owned.unnoticed {f : Client P → Client P} (ho : s.Owned)
    (hf : ∀ client : Client P, (f client).credential = client.credential ∧
      (f client).subs = client.subs ∧ (f client).stage = client.stage ∧
      (f client).heartbeat = client.heartbeat) : (s.setClient c f).Owned := by
  have hpumps : KeepsPumps s (s.setClient c f) := .of_eq rfl
  refine ho.keep hpumps rfl (List.length_modify _ _ _) fun d client hd => ?_
  rw [clients_setClient, hd, Option.map_some]
  have hgathered : ∀ other : Client P, other.subs = client.subs → other.stage = client.stage →
      other.heartbeat = client.heartbeat → other.stage = .left →
      (s.setClient c f).Gathered other := by
    intro other hsubs hstage hbeat hleft
    obtain ⟨hended, hrows⟩ := (ho.left d client hd (hstage ▸ hleft)).keep hpumps
    exact ⟨hbeat.trans hended, hsubs ▸ hrows⟩
  split_ifs
  · obtain ⟨hcredential, hsubs, hstage, hbeat⟩ := hf client
    exact ⟨_, rfl, hcredential, hsubs, by rw [hstage], hgathered _ hsubs hstage hbeat⟩
  · exact ⟨client, rfl, rfl, rfl, rfl, hgathered client rfl rfl rfl⟩

theorem Owned.call {b : BusAction P} (ho : s.Owned) (h : s.call b = some s') : s'.Owned := by
  obtain ⟨bus, -, rfl⟩ := call_eq_some.mp h
  exact ho.keep_clients (.of_eq rfl) rfl rfl

theorem Owned.step (ho : s.Owned) (h : s.step a = some s') : s'.Owned := by
  cases a with
  | bus b =>
    dsimp only [step] at h
    split_ifs at h
    exact ho.call h
  | connect authorization subprotocols =>
    obtain rfl := Option.some.inj h
    exact ho.connect authorization subprotocols
  | receive c raw =>
    dsimp only [step] at h
    split_ifs at h with hstage
    obtain rfl := Option.some.inj h
    exact ho.receive raw (serving_of_stageOf hstage rfl)
  | interrupt c =>
    dsimp only [step] at h
    split_ifs at h with hstage
    obtain rfl := Option.some.inj h
    exact ho.leaves (serving_of_stageOf hstage rfl)
  | answered c =>
    dsimp only [step] at h
    split_ifs at h with hstage
    obtain rfl := Option.some.inj h
    exact ho.resume (serving_of_stageOf hstage rfl)
  | unanswered c =>
    dsimp only [step] at h
    split_ifs at h with hstage
    obtain rfl := Option.some.inj h
    have hserving := serving_of_stageOf hstage rfl
    have hdisconnected : (s.disconnect c).Owned := ho.unnoticed fun _ => ⟨rfl, rfl, rfl, rfl⟩
    exact hdisconnected.leaves (hserving.setClient fun _ h => h)
  | beat c =>
    obtain ⟨client, hclient, hserves, -, rfl⟩ := whileServing_eq_some h
    have hserving : s.Serving c := ⟨client, hclient, hserves⟩
    split_ifs
    · have hsaid : (s.setClient c (·.say .heartbeat .ping)).Owned :=
        ho.goOn hserving fun _ => ⟨rfl, rfl, id⟩
      exact hsaid.goOn (hserving.setClient fun _ h => h) fun _ => ⟨rfl, rfl, id⟩
    · exact ho.goOn hserving fun _ => ⟨rfl, rfl, id⟩
  | beaten c =>
    obtain ⟨client, hclient, hserves, -, rfl⟩ := whileServing_eq_some h
    exact ho.goOn ⟨client, hclient, hserves⟩ fun _ => ⟨rfl, rfl, id⟩
  | unbeaten c | timeout c =>
    obtain ⟨client, hclient, hserves, -, rfl⟩ := whileServing_eq_some h
    have hserving : s.Serving c := ⟨client, hclient, hserves⟩
    have hdisconnected : (s.disconnect c).Owned := ho.unnoticed fun _ => ⟨rfl, rfl, rfl, rfl⟩
    exact hdisconnected.goOn (hserving.setClient fun _ h => h) fun _ => ⟨rfl, rfl, id⟩
  | stop c =>
    dsimp only [step] at h
    split_ifs at h with hstage
    obtain rfl := Option.some.inj h
    obtain ⟨client, hclient, hleaving⟩ := stageOf_eq_some.mp hstage
    refine ho.setClient hclient rfl rfl rfl fun hleft => ?_
    change client.stage = .left at hleft
    rw [hleaving] at hleft
    cases hleft
  | close c =>
    obtain ⟨client, hclient, h⟩ := Option.bind_eq_some_iff.mp h
    split_ifs at h with hclose
    obtain rfl := Option.some.inj h
    rw [Bool.and_eq_true, decide_eq_true_eq] at hclose
    obtain ⟨hstage, hgathered⟩ := hclose
    refine ho.setClient hclient rfl rfl (by rw [hstage]; rfl) fun _ => ?_
    unfold gathered at hgathered
    rw [Bool.and_eq_true, decide_eq_true_eq, List.all_eq_true] at hgathered
    refine ⟨hgathered.1, fun row hrow => ?_⟩
    obtain ⟨pump, hpump, -⟩ := ho.subs c client row.1 row.2 hclient hrow
    have hended := hgathered.2 row hrow
    change (s.pumps[row.2]?).all _ = true at hended
    rw [hpump] at hended
    exact ⟨pump, hpump, hended⟩
  | start i =>
    obtain ⟨pump, hpump, hstage, ⟨-, rfl⟩ | ⟨-, rfl⟩⟩ := start_eq_some h
    · exact ho.setStage hpump (.inr rfl)
    · have hended : pump.stage.isEnded = false := by rw [hstage]; rfl
      exact ho.keep_clients ((KeepsPumps.of_eq rfl).trans (keepsPumps_setStage hpump (.inl hended)))
        rfl rfl
  | forward i =>
    obtain ⟨pump, q, _, _, bus, hpump, hstage, -, -, -, hbus, ⟨-, rfl⟩ | ⟨-, h⟩⟩ := forward_eq_some h
    · have hended : pump.stage.isEnded = false := by rw [hstage]; rfl
      have hread := ho.call (call_eq_some.mpr ⟨bus, hbus, rfl⟩)
      refine Owned.setStage (hread.unnoticed ?_) hpump (.inl hended)
      exact fun _ => ⟨rfl, rfl, rfl, rfl⟩
    · exact (ho.call (call_eq_some.mpr ⟨bus, hbus, rfl⟩)).finish hpump h
  | forwarded i =>
    obtain ⟨pump, q, hpump, hstage, -, rfl⟩ := forwarded_eq_some h
    exact ho.setStage hpump (.inl (by rw [hstage]; rfl))
  | fail i gone =>
    obtain ⟨pump, q, hpump, -, -, h⟩ := fail_eq_some h
    refine Owned.finish (ho.unnoticed ?_) hpump h
    exact fun _ => ⟨rfl, rfl, rfl, rfl⟩
  | unwind i =>
    obtain ⟨pump, q, hpump, -, -, -, h⟩ := unwind_eq_some h
    exact ho.finish hpump h

end Step

end Hub
end Leitstand
