import Leitstand.ExternalServers
import Leitstand.TextCode
import Mathlib.Data.List.Dedup

namespace Leitstand

open TextCode

/-- The backend's own tools are offered under this name. -/
def domainToolPrefix : String := "leitstand"

/-- The rest of a text after any number of characters of a line. -/
def afterAny (rest : List Char → Bool) : List Char → Bool
  | [] => rest []
  | c :: text => rest (c :: text) || (c ≠ '\n' && afterAny rest text)

def matchesPattern : List Char → List Char → Bool
  | [] => List.isEmpty
  | c :: pattern => if c = '*' then afterAny (matchesPattern pattern) else fun
    | [] => false
    | d :: text => c = d && matchesPattern pattern text

/-- The tools of one server that may be used. -/
structure ToolAllowlist where
  patterns : List ToolPattern

def ToolAllowlist.allows (allowlist : ToolAllowlist) (tool : String) : Bool :=
  allowlist.patterns.any fun pattern => matchesPattern pattern.text.toList tool.toList

/-- The patterns that match none of the tools. -/
def ToolAllowlist.unmatched (allowlist : ToolAllowlist) (tools : List String) : List String :=
  ((allowlist.patterns.map (·.text)).filter fun pattern =>
    !tools.any fun tool => matchesPattern pattern.toList tool.toList).dedup

/-- The tools that a server lists, each under its own name. -/
structure ToolDict where
  names : List String
  nodup : names.Nodup

/-- How a tool is named that is offered under a prefix. -/
structure Naming where
  prefixed : String → String → String
  prefixed_eq : ∀ name tool, prefixed name tool = name ++ "_" ++ tool

structure OfferedTool where
  server : String
  tool : String
  name : String

section Offered
variable (naming : Naming) {reservedPrefix : String}

/-- One server's allowed tools under its name. -/
def wrapExternalToolset (server : LoadedServer reservedPrefix) (announced : ToolDict) :
    List OfferedTool :=
  (announced.names.filter (ToolAllowlist.mk server.server.allowedTools).allows).map fun tool =>
    { server := server.name, tool, name := naming.prefixed server.name tool }

def offeredTools (loaded : LoadedServers reservedPrefix) (announced : String → ToolDict) :
    List OfferedTool :=
  loaded.rows.flatMap fun server => wrapExternalToolset naming server (announced server.name)

end Offered

/-- The names can be told apart, also from the backend's own, and a model provider takes them. -/
structure NamesFit (offered : List OfferedTool) : Prop where
  distinct : (offered.map OfferedTool.name).Nodup
  free : ∀ tool ∈ offered, ¬ domainToolPrefix.toList <+: tool.name.toList
  short : ∀ tool ∈ offered, tool.name.length ≤ 64

section Names
variable {reservedPrefix : String} {name : String} {naming : Naming}

def serverNameChar (c : Char) : Bool := c.isLower || c.isDigit

theorem serverNameChar_of_valid (h : validServerName reservedPrefix name = true) :
    ∀ c ∈ name.toList, serverNameChar c = true := by
  unfold validServerName at h
  simp only [Bool.and_eq_true] at h
  obtain ⟨⟨hchars, -⟩, -⟩ := h
  cases hname : name.toList with
  | nil => nofun
  | cons first more =>
    rw [hname] at hchars
    obtain ⟨hfirst, hmore⟩ := Bool.and_eq_true_iff.mp hchars
    intro c hc
    rcases List.mem_cons.mp hc with rfl | hc
    · exact Bool.or_eq_true_iff.mpr (.inl hfirst)
    · exact List.all_eq_true.mp hmore c hc

theorem length_of_valid (h : validServerName reservedPrefix name = true) :
    name.length ≤ maxServerName := by
  unfold validServerName at h
  simp only [Bool.and_eq_true, decide_eq_true_eq] at h
  exact h.1.2

theorem not_reserved_of_valid (h : validServerName reservedPrefix name = true) :
    ¬ reservedPrefix.toList <+: name.toList := by
  unfold validServerName at h
  simp only [Bool.and_eq_true, Bool.not_eq_true'] at h
  rw [← List.isPrefixOf_iff_prefix, h.2]
  exact Bool.false_ne_true

theorem toList_prefixed (naming : Naming) (name tool : String) :
    (naming.prefixed name tool).toList = name.toList ++ '_' :: tool.toList := by
  rw [naming.prefixed_eq, String.toList_append, String.toList_append, List.append_assoc]
  rfl

theorem length_prefixed (naming : Naming) (name tool : String) :
    (naming.prefixed name tool).length = name.length + 1 + tool.length := by
  rw [naming.prefixed_eq, String.length_append, String.length_append]
  rfl

theorem stops_underscore (rest : List Char) : Stops serverNameChar ('_' :: rest) :=
  stops_cons (by decide)

/-- No server name has an underscore, so the first one in a prefixed name ends it. -/
theorem prefixed_inj {name' tool tool' : String} (hname : validServerName reservedPrefix name = true)
    (hname' : validServerName reservedPrefix name' = true)
    (h : naming.prefixed name tool = naming.prefixed name' tool') : name = name' ∧ tool = tool' := by
  have htexts := congrArg String.toList h
  rw [toList_prefixed, toList_prefixed] at htexts
  obtain ⟨hsame, hrest⟩ := append_inj_of_stops (serverNameChar_of_valid hname)
    (serverNameChar_of_valid hname') (stops_underscore _) (stops_underscore _) htexts
  exact ⟨String.toList_inj.mp hsame, String.toList_inj.mp (List.cons.inj hrest).2⟩

theorem prefixed_free (hname : validServerName domainToolPrefix name = true) (tool : String) :
    ¬ domainToolPrefix.toList <+: (naming.prefixed name tool).toList := by
  rw [toList_prefixed]
  intro h
  have hchars : domainToolPrefix.toList.all serverNameChar = true := by decide
  exact not_reserved_of_valid hname
    (prefix_of_stops (List.all_eq_true.mp hchars) (stops_underscore _) h)

/-- A pattern without a wildcard allows the tool it names and no other. -/
theorem eq_of_matchesPattern {pattern tool : List Char} (hplain : '*' ∉ pattern)
    (h : matchesPattern pattern tool = true) : tool = pattern := by
  induction pattern generalizing tool with
  | nil => exact List.isEmpty_iff.mp h
  | cons c pattern ih =>
    rw [List.mem_cons, not_or] at hplain
    unfold matchesPattern at h
    rw [if_neg (Ne.symm hplain.1)] at h
    cases tool with
    | nil => cases h
    | cons d tool =>
      obtain ⟨hc, hrest⟩ := Bool.and_eq_true_iff.mp h
      rw [of_decide_eq_true hc, ih hplain.2 hrest]

end Names

/-- A wildcard of the server admits the tool. -/
def WildcardAdmits (server : ExternalMCPServer) (tool : String) : Prop :=
  ∃ pattern ∈ server.allowedTools, '*' ∈ pattern.text.toList ∧
    matchesPattern pattern.text.toList tool.toList = true

section Offers
variable {naming : Naming} {reservedPrefix : String} {loaded : LoadedServers reservedPrefix}
  {announced : String → ToolDict}

theorem mem_offeredTools {offered : OfferedTool} : offered ∈ offeredTools naming loaded announced ↔
    ∃ server ∈ loaded.rows, ∃ tool ∈ (announced server.name).names,
      (ToolAllowlist.mk server.server.allowedTools).allows tool = true ∧
      { server := server.name, tool, name := naming.prefixed server.name tool } = offered := by
  unfold offeredTools wrapExternalToolset
  simp only [List.mem_flatMap, List.mem_map, List.mem_filter, and_assoc]

theorem offered_distinct : ((offeredTools naming loaded announced).map OfferedTool.name).Nodup := by
  unfold offeredTools
  rw [List.map_flatMap, List.nodup_flatMap]
  constructor
  · intro server _
    unfold wrapExternalToolset
    rw [List.map_map]
    refine ((announced server.name).nodup.filter _).map_on ?_
    intro tool _ tool' _ h
    exact (prefixed_inj server.valid server.valid h).2
  · have hnames := List.pairwise_map.mp loaded.nodup
    refine hnames.imp fun {server server'} hne => ?_
    intro name hname hname'
    obtain ⟨offered, hoffered, rfl⟩ := List.mem_map.mp hname
    obtain ⟨offered', hoffered', hsame⟩ := List.mem_map.mp hname'
    obtain ⟨tool, -, rfl⟩ := List.mem_map.mp hoffered
    obtain ⟨tool', -, rfl⟩ := List.mem_map.mp hoffered'
    exact hne (prefixed_inj server'.valid server.valid hsame).1.symm

/-- An admitted tool has a name that is short enough, unless it is a wildcard that admits it. -/
theorem length_of_allowed {server : LoadedServer reservedPrefix} {tool : String}
    (h : (ToolAllowlist.mk server.server.allowedTools).allows tool = true)
    (hplain : ¬ WildcardAdmits server.server tool) : server.name.length + 1 + tool.length ≤ 64 := by
  obtain ⟨pattern, hpattern, hmatch⟩ := List.any_eq_true.mp h
  have hliteral : '*' ∉ pattern.text.toList := fun hstar => hplain ⟨pattern, hpattern, hstar, hmatch⟩
  have hsame := String.toList_inj.mp (eq_of_matchesPattern hliteral hmatch)
  have hname := length_of_valid server.valid
  have hshort := pattern.short
  rw [hsame]
  unfold maxServerName at hname hshort
  omega

end Offers

/-- The names of external tools can be told apart and none takes the backend's own prefix; they are
all short enough if and only if those are that a wildcard admits. -/
theorem external_names_fit_iff (naming : Naming) (readings : Readings)
    (env : String → Option String) (file : Option Json) (announced : String → ToolDict) :
    let loaded := loadExternalServers readings env domainToolPrefix file
    NamesFit (offeredTools naming loaded announced) ↔
      ∀ server ∈ loaded.rows, ∀ tool ∈ (announced server.name).names,
        WildcardAdmits server.server tool → server.name.length + 1 + tool.length ≤ 64 := by
  intro loaded
  constructor
  · intro hfit server hserver tool htool hwild
    have hallows : (ToolAllowlist.mk server.server.allowedTools).allows tool = true := by
      obtain ⟨pattern, hpattern, -, hmatch⟩ := hwild
      exact List.any_eq_true.mpr ⟨pattern, hpattern, hmatch⟩
    have hshort := hfit.short _ (mem_offeredTools.mpr
      ⟨server, hserver, tool, htool, hallows, rfl⟩)
    rwa [length_prefixed] at hshort
  · intro hwild
    refine ⟨offered_distinct, ?_, ?_⟩
    · intro offered hoffered
      obtain ⟨server, -, tool, -, -, rfl⟩ := mem_offeredTools.mp hoffered
      exact prefixed_free server.valid tool
    · intro offered hoffered
      obtain ⟨server, hserver, tool, htool, hallows, rfl⟩ := mem_offeredTools.mp hoffered
      dsimp only
      rw [length_prefixed]
      by_cases hadmits : WildcardAdmits server.server tool
      · exact hwild server hserver tool htool hadmits
      · exact length_of_allowed hallows hadmits

section Demo

def demoReadings : Readings where
  scheme := fun _ => some "http"
  transport := fun _ => "http"
  int? := fun _ => none

/-- One server, all of whose tools are allowed. -/
def demoServers : Json :=
  .obj [("mcpServers", .obj [("weather", .obj
    [("url", .str "http://mcp-weather:8091/mcp"), ("allowed_tools", .arr [.str "*"])])])]

/-- A tool with a name of 57 characters. -/
def demoTools : ToolDict :=
  ⟨["hourly_precipitation_forecast_for_a_field_and_its_borders"], List.nodup_singleton _⟩

/-- Under its prefix of eight characters the name has 65. -/
theorem wildcard_name_too_long : ¬ NamesFit (offeredTools ⟨fun name tool => name ++ "_" ++ tool,
    fun _ _ => rfl⟩ (loadExternalServers demoReadings (fun _ => none) domainToolPrefix
    (some demoServers)) fun _ => demoTools) := by
  intro h
  have hparts : ((offeredTools ⟨fun name tool => name ++ "_" ++ tool, fun _ _ => rfl⟩
      (loadExternalServers demoReadings (fun _ => none) domainToolPrefix (some demoServers))
      fun _ => demoTools).any fun offered =>
        offered.server.length = 7 ∧ offered.tool.length = 57) = true := by
    decide +kernel
  obtain ⟨offered, hoffered, hlengths⟩ := List.any_eq_true.mp hparts
  obtain ⟨hserver, htool⟩ := of_decide_eq_true hlengths
  have hshort := h.short offered hoffered
  obtain ⟨server, -, tool, -, -, rfl⟩ := mem_offeredTools.mp hoffered
  dsimp only at hserver htool hshort
  rw [String.length_append, String.length_append, hserver, htool] at hshort
  exact absurd hshort (by decide)

end Demo

end Leitstand
