import Leitstand.Snapshots

namespace Leitstand
open RobotConnectivity

/-- The step is a liveliness sample of the robot. -/
def Action.samples (robotId : RobotId) : Action → Bool
  | .livelinessPut id | .livelinessDelete id => id = robotId
  | _ => false

namespace System
variable {s s' : System} {a : Action} {robotId : RobotId}

/-- The robot's row says that it is online. -/
def isOnline (s : System) (robotId : RobotId) : Bool :=
  (s.store.robots.find? robotId).any (·.online)

/-- A `PUT` of the robot is still being handled. -/
def Waits (s : System) (robotId : RobotId) : Prop := robotId ∈ s.handlers.map (·.robotId)

instance : Decidable (s.Waits robotId) := inferInstanceAs (Decidable (_ ∈ _))

/-- The robot's reply to the metadata query, if the step brings one, is valid. -/
def ValidReply (robotId : RobotId) (s : System) : Action → Prop
  | .answerMetadata i replies => (s.handlers[i]?).any (·.robotId = robotId) = true →
    (fetchMetadata robotId replies).isSome = true
  | _ => True

theorem fetchMetadata_robotId {replies : List MetadataReply} {command : RecordOnlineCommand}
    (h : fetchMetadata robotId replies = some command) : command.robotId = robotId := by
  fun_induction fetchMetadata robotId replies with
  | case1 => cases h
  | case2 id field rest hskip ih => exact ih h
  | case3 id field rest huse =>
    obtain rfl := Option.some.inj h
    rfl
  | case4 reply rest hother ih => exact ih h

theorem isOnline_recordOnline (command : RecordOnlineCommand) (known : List UUID) :
    (s.recordOnline command known).isOnline robotId =
      (decide (command.robotId = robotId) || s.isOnline robotId) := by
  have hx := @recordOnline_eq { store := s.store } s.clock command
  have hid : (onlineRow s.clock s.store command).id = command.robotId := by
    unfold onlineRow
    split
    · rfl
    · rename_i row hrow
      have hkey : row.id = command.robotId := Table.key_of_find? hrow
      exact hkey
  have hon : (onlineRow s.clock s.store command).online = true := by
    unfold onlineRow
    split <;> rfl
  unfold isOnline recordOnline
  rw [perform_ok hx]
  change ((s.store.robots.upsert _ _).find? robotId).any _ = _
  rw [Table.find?_upsert, hid]
  by_cases hk : robotId = command.robotId
  · rw [if_pos hk, Option.any_some]
    cases s.store.robots.find? robotId <;> simp [hk.symm, hon]
  · have hk' : command.robotId ≠ robotId := fun he => hk he.symm
    simp [hk, hk']

theorem isOnline_recordOffline (id : RobotId) :
    (s.perform (RobotConnectivity.recordOffline id)).isOnline robotId =
      (!decide (id = robotId) && s.isOnline robotId) := by
  have hx := @recordOffline_eq { store := s.store } id
  have hrobots : ({ store := s.store } : Tx Store Event Command).store.robots = s.store.robots := rfl
  rw [hrobots] at hx
  cases hr : s.store.robots.find? id with
  | none =>
    rw [hr] at hx
    rw [perform_ok hx]
    change s.isOnline robotId = _
    by_cases hk : id = robotId
    · subst hk
      simp [isOnline, hr]
    · simp [hk]
  | some row =>
    rw [hr] at hx
    rw [perform_ok hx]
    have hkey : row.id = id := Table.key_of_find? hr
    change ((s.store.robots.replace { row with online := false }).find? robotId).any _ = _
    rw [Table.find?_replace]
    by_cases hk : id = robotId
    · subst hk
      simp [hkey, hr]
    · have hk' : robotId ≠ row.id := fun he => hk (hkey.symm.trans he.symm)
      simp [hk, hk', isOnline]

/-- A handler is of an id the backend takes, with a valid answer once one came; only such a robot is
ever online. -/
structure Presence (robotId : RobotId) (s : System) : Prop where
  handlers : ∀ h ∈ s.handlers, h.robotId = robotId → robotIdMatches robotId = true ∧
    ∀ answer, h.answer = some answer → (fetchMetadata robotId answer.replies).isSome = true
  online : s.isOnline robotId = true → robotIdMatches robotId = true

theorem isOnline_congr (h : s'.store.robots = s.store.robots) :
    s'.isOnline robotId = s.isOnline robotId := by
  unfold isOnline
  rw [h]

theorem waits_congr (h : s'.handlers = s.handlers) : s'.Waits robotId ↔ s.Waits robotId := by
  unfold Waits
  rw [h]

theorem Presence.congr (h : Presence robotId s) (hh : s'.handlers = s.handlers)
    (ho : s'.isOnline robotId = true → s.isOnline robotId = true) : Presence robotId s' :=
  ⟨hh ▸ h.handlers, fun hon => h.online (ho hon)⟩

section Put
variable (s) (id : RobotId)

theorem isOnline_livelinessPut : (s.livelinessPut id).isOnline robotId = s.isOnline robotId := by
  unfold livelinessPut
  split_ifs <;> rfl

theorem waits_livelinessPut : (s.livelinessPut id).Waits robotId ↔
    s.Waits robotId ∨ id = robotId ∧ robotIdMatches robotId = true := by
  unfold livelinessPut Waits
  split_ifs with hm
  · simp only [List.map_append, List.map_cons, List.map_nil, List.mem_append, List.mem_singleton]
    refine or_congr_right ?_
    constructor
    · rintro rfl
      exact ⟨rfl, hm⟩
    · rintro ⟨rfl, -⟩
      rfl
  · refine (or_iff_left ?_).symm
    rintro ⟨rfl, hm'⟩
    exact hm hm'

theorem Presence.put (h : Presence robotId s) : Presence robotId (s.livelinessPut id) := by
  refine ⟨?_, by rw [isOnline_livelinessPut]; exact h.online⟩
  unfold livelinessPut
  split_ifs with hm
  · intro handler hmem hid
    obtain hmem | hmem := List.mem_append.mp hmem
    · exact h.handlers handler hmem hid
    · obtain rfl := List.mem_singleton.mp hmem
      obtain rfl : id = robotId := hid
      exact ⟨hm, by rintro answer ⟨⟩⟩
  · exact h.handlers

end Put

section Answer
variable {i : Nat} {replies : List MetadataReply}

theorem answerMetadata_some (h : s.answerMetadata i replies = some s') : ∃ id,
    s.handlers[i]? = some ⟨id, none⟩ ∧ s' = { s with
      handlers := s.handlers.set i ⟨id, some { replies, known := s.issued }⟩ } := by
  unfold answerMetadata at h
  split at h
  · rename_i id hi
    exact ⟨id, hi, (Option.some.inj h).symm⟩
  · cases h

theorem waits_answerMetadata (h : s.answerMetadata i replies = some s') :
    s'.Waits robotId ↔ s.Waits robotId := by
  obtain ⟨id, hi, rfl⟩ := answerMetadata_some h
  obtain ⟨hlt, he⟩ := List.getElem?_eq_some_iff.mp hi
  have hset : (s.handlers.set i ⟨id, some { replies, known := s.issued }⟩).map (·.robotId) =
      s.handlers.map (·.robotId) := by
    have hlt' : i < (s.handlers.map (·.robotId)).length := by simpa using hlt
    have hsame : id = (s.handlers.map (·.robotId))[i] := by simp [he]
    rw [List.map_set]
    change (s.handlers.map (·.robotId)).set i id = _
    rw [hsame, List.set_getElem_self]
  unfold Waits
  rw [hset]

theorem Presence.answer (h : Presence robotId s)
    (hv : ValidReply robotId s (.answerMetadata i replies))
    (ha : s.answerMetadata i replies = some s') : Presence robotId s' := by
  obtain ⟨id, hi, rfl⟩ := answerMetadata_some ha
  refine ⟨?_, h.online⟩
  intro handler hmem hid
  obtain hmem | rfl := List.mem_or_eq_of_mem_set hmem
  · exact h.handlers handler hmem hid
  · obtain rfl : id = robotId := hid
    refine ⟨(h.handlers _ (List.mem_of_getElem? hi) rfl).1, ?_⟩
    rintro answer ⟨⟩
    exact hv (by rw [hi]; simp)

end Answer

section Arrival
variable {i : Nat}

theorem metadataArrives_some (h : s.metadataArrives i = some s') : ∃ id answer,
    s.handlers[i]? = some ⟨id, some answer⟩ ∧
      s' = (fetchMetadata id answer.replies).elim { s with handlers := s.handlers.eraseIdx i }
        fun command =>
          { s with handlers := s.handlers.eraseIdx i }.recordOnline command answer.known := by
  unfold metadataArrives at h
  split at h
  · rename_i id answer hi
    refine ⟨id, answer, hi, ?_⟩
    dsimp only at h
    split at h
    · rename_i hn
      rw [hn]
      exact (Option.some.inj h).symm
    · rename_i command hc
      rw [hc]
      exact (Option.some.inj h).symm
  · cases h

theorem handlers_metadataArrives (h : s.metadataArrives i = some s') :
    s'.handlers = s.handlers.eraseIdx i := by
  obtain ⟨id, answer, -, rfl⟩ := metadataArrives_some h
  cases fetchMetadata id answer.replies <;> rfl

/-- The robot whose answer arrives comes online, any other stays as it is. -/
theorem isOnline_metadataArrives (hp : Presence robotId s) (h : s.metadataArrives i = some s') :
    ∃ handler, s.handlers[i]? = some handler ∧ s'.isOnline robotId =
      (decide (handler.robotId = robotId) || s.isOnline robotId) := by
  obtain ⟨id, answer, hi, rfl⟩ := metadataArrives_some h
  refine ⟨_, hi, ?_⟩
  cases hf : fetchMetadata id answer.replies with
  | none =>
    have hne : id ≠ robotId := by
      rintro rfl
      have hvalid := (hp.handlers _ (List.mem_of_getElem? hi) rfl).2 answer rfl
      rw [hf] at hvalid
      cases hvalid
    simp [hne, isOnline, store]
  | some command =>
    rw [Option.elim_some, isOnline_recordOnline, fetchMetadata_robotId hf]
    rfl

end Arrival

theorem Presence.step (hp : Presence robotId s) (h : s.Reachable) (hs : s.step a = some s')
    (hv : ValidReply robotId s a) : Presence robotId s' := by
  cases a with
  | livelinessPut id =>
    cases hs
    exact hp.put s id
  | livelinessDelete id =>
    cases hs
    refine hp.congr rfl ?_
    rw [isOnline_recordOffline]
    simp
  | answerMetadata i replies => exact hp.answer hv hs
  | metadataArrives i =>
    obtain ⟨handler, hi, hon⟩ := isOnline_metadataArrives hp hs
    refine ⟨?_, ?_⟩
    · rw [handlers_metadataArrives hs]
      exact fun other hmem => hp.handlers other (List.mem_of_mem_eraseIdx hmem)
    · rw [hon, Bool.or_eq_true, decide_eq_true_eq]
      rintro (hid | hon)
      · exact (hp.handlers handler (List.mem_of_getElem? hi) hid).1
      · exact hp.online hon
  | _ =>
    have hrobots := (h.runsStep hs).frame.robots rfl
    have hh := (step_frame hs).handlers (by simp) (by simp) (by simp)
    exact hp.congr hh (isOnline_congr hrobots ▸ id)

/-- Between its samples a robot stays online or about to be, or neither. -/
theorem present_step (hp : Presence robotId s) (h : s.Reachable) (hs : s.step a = some s')
    (ha : a.samples robotId = false) :
    s'.isOnline robotId = true ∨ s'.Waits robotId ↔ s.isOnline robotId = true ∨ s.Waits robotId := by
  cases a with
  | livelinessPut id =>
    have hne : id ≠ robotId := by simpa [Action.samples] using ha
    cases hs
    rw [isOnline_livelinessPut, waits_livelinessPut]
    simp [hne]
  | livelinessDelete id =>
    have hne : id ≠ robotId := by simpa [Action.samples] using ha
    cases hs
    rw [isOnline_recordOffline]
    simp only [hne, decide_false, Bool.not_false, Bool.true_and]
    rfl
  | answerMetadata i replies =>
    rw [waits_answerMetadata hs]
    obtain ⟨id, -, rfl⟩ := answerMetadata_some hs
    rfl
  | metadataArrives i =>
    obtain ⟨handler, hi, hon⟩ := isOnline_metadataArrives hp hs
    have hh := handlers_metadataArrives hs
    by_cases hid : handler.robotId = robotId
    · have hwaits : s.Waits robotId := by
        have hmem := List.mem_of_getElem? hi
        exact List.mem_map.mpr ⟨handler, hmem, hid⟩
      rw [hon]
      simp [hid, hwaits]
    · have hsame : s'.Waits robotId ↔ s.Waits robotId := by
        unfold Waits
        rw [hh]
        simp only [List.mem_map, List.mem_eraseIdx_iff_getElem?]
        constructor
        · rintro ⟨other, ⟨j, -, hj⟩, he⟩
          exact ⟨other, List.mem_of_getElem? hj, he⟩
        · rintro ⟨other, hmem, he⟩
          obtain ⟨j, hj⟩ := List.mem_iff_getElem?.mp hmem
          refine ⟨other, ⟨j, ?_, hj⟩, he⟩
          rintro rfl
          rw [hi] at hj
          exact hid (Option.some.inj hj ▸ he)
      rw [hon, hsame]
      simp [hid]
  | _ =>
    have hrobots := (h.runsStep hs).frame.robots rfl
    have hh := (step_frame hs).handlers (by simp) (by simp) (by simp)
    rw [isOnline_congr hrobots, waits_congr hh]

section Run
variable {acts past : List Action}

theorem Presence.run (hp : Presence robotId s) (h : s.Reachable)
    (hs : StepSystem.exec System.step s acts = some s')
    (hv : StepSystem.Throughout System.step (fun _ m a => ValidReply robotId m a) past s acts) :
    Presence robotId s' := by
  induction acts generalizing s past with
  | nil =>
    cases hs
    exact hp
  | cons a acts ih =>
    obtain ⟨m, hm, hrest⟩ := StepSystem.exec_cons_iff.mp hs
    exact ih (hp.step h hm hv.1) (h.step hm) hrest (hv.2 m hm)

theorem present_run (hp : Presence robotId s) (h : s.Reachable)
    (hs : StepSystem.exec step s acts = some s') (hacts : ∀ a ∈ acts, a.samples robotId = false)
    (hv : StepSystem.Throughout step (fun _ m a => ValidReply robotId m a) past s acts) :
    s'.isOnline robotId = true ∨ s'.Waits robotId ↔ s.isOnline robotId = true ∨ s.Waits robotId := by
  induction acts generalizing s past with
  | nil =>
    cases hs
    rfl
  | cons a acts ih =>
    obtain ⟨m, hm, hrest⟩ := StepSystem.exec_cons_iff.mp hs
    have htail : ∀ b ∈ acts, b.samples robotId = false := fun b hb =>
      hacts b (List.mem_cons_of_mem a hb)
    rw [ih (hp.step h hm hv.1) (h.step hm) hrest htail (hv.2 m hm)]
    exact present_step hp h hm (hacts a List.mem_cons_self)

end Run

theorem Initial.presence (h : Initial s) : Presence robotId s := by
  refine ⟨by simp [h.handlers], fun hon => ?_⟩
  unfold isOnline at hon
  obtain ⟨row, hrow, honline⟩ := (Option.any_eq_true _ _).mp hon
  rw [h.offline row (Table.mem_of_find? hrow)] at honline
  cases honline

end System

open StepSystem

/-- Once all its handlers are done a robot is online just if the last sample was a `PUT` of an id the
backend takes, unless the last sample was a `DELETE` that came while a `PUT` was being handled. -/
theorem online_flag_follows_last_sample_iff {s₀ m s : System} {robotId : RobotId}
    {pre post : List Action} {sample : Action} (h₀ : s₀.Initial)
    (hm : exec System.step s₀ pre = some m) (hs : exec System.step m (sample :: post) = some s)
    (hsample : sample = .livelinessPut robotId ∨ sample = .livelinessDelete robotId)
    (hlast : ∀ a ∈ post, a.samples robotId = false)
    (hvalid : Throughout System.step (fun _ m a => m.ValidReply robotId a) [] s₀
      (pre ++ sample :: post)) (hdone : ¬ s.Waits robotId) :
    (s.isOnline robotId = true ↔
        sample = .livelinessPut robotId ∧ robotIdMatches robotId = true) ↔
      (sample = .livelinessDelete robotId → ¬ m.Waits robotId) := by
  have hmr : m.Reachable := ⟨s₀, pre, h₀, hm⟩
  obtain ⟨hpre, hfirst, hrest⟩ := (throughout_append hm).mp hvalid
  have hp : System.Presence robotId m := h₀.presence.run ⟨s₀, [], h₀, rfl⟩ hm hpre
  obtain ⟨m', hm', hpost⟩ := exec_cons_iff.mp hs
  have hrun := System.present_run (hp.step hmr hm' hfirst) (hmr.step hm') hpost hlast (hrest m' hm')
  rw [or_iff_left hdone] at hrun
  rw [hrun]
  obtain rfl | rfl := hsample
  · cases hm'
    have hknown : m.isOnline robotId = true ∨ m.Waits robotId → robotIdMatches robotId = true := by
      rintro (hon | hwaits)
      · exact hp.online hon
      · obtain ⟨handler, hmem, hid⟩ := List.mem_map.mp hwaits
        exact (hp.handlers handler hmem hid).1
    rw [System.isOnline_livelinessPut, System.waits_livelinessPut, ← or_assoc]
    simp only [true_and]
    exact iff_of_true ⟨fun h => h.elim hknown id, .inr⟩ (by simp)
  · cases hm'
    rw [System.isOnline_recordOffline]
    change (_ ∨ m.Waits robotId ↔ _) ↔ _
    simp

section Demo

theorem online_flag_follows_last_sample_iff_put : ∃ s : System,
    exec System.step demo demoOnline = some s ∧ ¬ s.Waits "r1" ∧ ((s.isOnline "r1" = true ↔
        Action.livelinessPut "r1" = .livelinessPut "r1" ∧ robotIdMatches "r1" = true) ↔
      (Action.livelinessPut "r1" = .livelinessDelete "r1" → ¬ demo.Waits "r1")) := by
  have hdemo : (exec System.step demo demoOnline).any (fun s => ¬ s.Waits "r1") = true := by decide
  obtain ⟨s, hs, hdone⟩ := (Option.any_eq_true _ _).mp hdemo
  have hvalid : Throughout System.step (fun _ m a => m.ValidReply "r1" a) [] demo
      ([] ++ demoOnline) :=
    ⟨trivial, fun _ _ => ⟨fun _ => rfl, fun _ _ => ⟨trivial, fun _ _ => trivial⟩⟩⟩
  exact ⟨s, hs, of_decide_eq_true hdone, online_flag_follows_last_sample_iff
    (System.boot_initial _ _ _) rfl hs (.inl rfl) (by simp [Action.samples]) hvalid
    (of_decide_eq_true hdone)⟩

/-- The token is gone before the robot's answer arrives, and the answer puts the robot online. -/
theorem online_after_token_is_gone : ¬ ∀ (s₀ m s : System) (robotId : RobotId)
    (pre post : List Action) (sample : Action), s₀.Initial → exec System.step s₀ pre = some m →
    exec System.step m (sample :: post) = some s →
    sample = .livelinessPut robotId ∨ sample = .livelinessDelete robotId →
    (∀ a ∈ post, a.samples robotId = false) →
    Throughout System.step (fun _ m a => m.ValidReply robotId a) [] s₀ (pre ++ sample :: post) →
    ¬ s.Waits robotId → robotIdMatches robotId = true →
    (s.isOnline robotId = true ↔ sample = .livelinessPut robotId) := by
  intro hall
  have hdemo : (exec System.step demo [.livelinessPut "r1"]).any (fun m =>
      (exec System.step m (.livelinessDelete "r1" :: demoOnline.tail)).any fun s =>
        ¬ s.Waits "r1" && s.isOnline "r1") = true := by decide
  obtain ⟨m, hm, hp⟩ := (Option.any_eq_true _ _).mp hdemo
  obtain ⟨s, hs, hp⟩ := (Option.any_eq_true _ _).mp hp
  obtain ⟨hdone, hon⟩ := Bool.and_eq_true_iff.mp hp
  have hvalid : Throughout System.step (fun _ m a => m.ValidReply "r1" a) [] demo
      ([.livelinessPut "r1"] ++ .livelinessDelete "r1" :: demoOnline.tail) :=
    ⟨trivial, fun _ _ => ⟨trivial, fun _ _ => ⟨fun _ => rfl, fun _ _ => ⟨trivial,
      fun _ _ => trivial⟩⟩⟩⟩
  have hclaim := hall demo m s "r1" _ _ _ (System.boot_initial _ _ _) hm hs (.inr rfl)
    (by simp [demoOnline, Action.samples]) hvalid (of_decide_eq_true hdone) (by decide)
  cases hclaim.mp hon

end Demo
end Leitstand
