/-
# `InstanceAudit` — what a scan of an instance has found, and in which order

The processes, startup items and connections of an instance are held against
rules.  Each hit is a finding, and a finding that an entry of the ignore list
fits is marked.  `analyzeAuditData` sorts the findings before it returns them,
and a snapshot keeps the first 80 (`storedFindings`).

The comparator is meant to put what is not ignored first.  But where nothing is
ignored the flag is `undefined`, `Number(undefined)` is `NaN`, and a comparison
with `NaN` falls through to the severities: they alone decide, and then the
order in which the findings were made.  `audit_order_iff` says when the report
comes out as meant all the same.
-/
import Incudal.AgentReport
import Incudal.Lib.StableSort

namespace Incudal

/-! ## The runtime -/

/-- What the analysis takes from the runtime. -/
structure AuditTools where
  /-- The first match of a pattern, with or without regard to case; nothing also where the
  pattern is not a regular expression. -/
  regexMatch : Text → Bool → Text → Option Text
  toLowerCase : Text → Text
  toUpperCase : Text → Text
  /-- `String` of a number. -/
  numberText : ℚ → Text
  /-- `new Date` of a text; nothing for an invalid date. -/
  parseDate : Text → Option Time

/-! ## Rules, findings, ignores -/

inductive AuditSeverity
  | info | low | medium | high
deriving DecidableEq, Repr

def severityRank : AuditSeverity → ℕ
  | .info => 0
  | .low => 1
  | .medium => 2
  | .high => 3

inductive AuditTarget
  | process | network | startup | capability
deriving DecidableEq, Repr

inductive AuditRuleMatchType
  | contains | regex | exact
deriving DecidableEq, Repr

inductive AuditRuleSource
  | builtin | custom
deriving DecidableEq, Repr

structure AuditProcess where
  pid : ℕ
  cpuPercent : Option ℚ
  command : Text
  args : Text
  raw : Text
  findings : List Text := []
deriving DecidableEq

structure AuditConnection where
  protocol : Text
  state : Text
  local' : Text
  peer : Text
  pid : Option ℕ
  raw : Text
deriving DecidableEq

structure AuditStartupItem where
  source : Text
  command : Text
  raw : Text
  findings : List Text := []
deriving DecidableEq

/-- `AuditFinding`; `ignored` is absent until an entry of the ignore list sets it. -/
structure AuditFinding where
  id : Text
  severity : AuditSeverity
  category : Text
  title : Text
  detail : Text
  targetType : AuditTarget
  ruleId : Option Text := none
  ruleName : Option Text := none
  ruleSource : Option AuditRuleSource := none
  matchedText : Option Text := none
  recommendation : Option Text := none
  pid : Option ℕ := none
  evidence : Text
  ignored : Option Bool := none
  ignoreReason : Option Text := none
deriving DecidableEq

/-- `finding.ignored` as a condition. -/
def AuditFinding.isIgnored (finding : AuditFinding) : Bool := finding.ignored == some true

structure AuditRuleDefinition where
  id : Text
  severity : AuditSeverity
  category : Text
  name : Text
  targetTypes : List AuditTarget
  matchType : AuditRuleMatchType
  patternText : Text
  caseSensitive : Bool
  source : AuditRuleSource
  enabled : Bool
  recommendation : Option Text := none
deriving DecidableEq

inductive AuditExpiry
  | date (time : Option Time)
  | text (s : Text)
deriving DecidableEq

structure AuditIgnoreDefinition where
  ruleId : Option Text := none
  targetType : Option AuditTarget := none
  matchText : Option Text := none
  reason : Option Text := none
  expiresAt : Option AuditExpiry := none
deriving DecidableEq

structure AuditSummary where
  riskLevel : AuditSeverity
  processCount : ℕ
  connectionCount : ℕ
  listeningCount : ℕ
  startupItemCount : ℕ
  findingCount : ℕ
deriving DecidableEq

/-- A built-in rule: all of them are patterns for processes and startup items. -/
def builtinRule (id : String) (severity : AuditSeverity) (category name patternText
    recommendation : String) : AuditRuleDefinition where
  id := text id
  severity := severity
  category := text category
  name := text name
  targetTypes := [.process, .startup]
  matchType := .regex
  patternText := text patternText
  caseSensitive := false
  source := .builtin
  enabled := true
  recommendation := some (text recommendation)

/-- `BUILTIN_AUDIT_RULES`. -/
def BUILTIN_AUDIT_RULES : List AuditRuleDefinition :=
  [builtinRule "packet-tool-hping" .high "network-abuse" "疑似发包工具进程"
      "\\b(hping[3]?|nping|mz|mausezahn|mzbench|pktgen|packit|nemesis|tcpreplay|scapy|flood|synflood|udpflood|icmpflood|httpflood|slowloris|goldeneye|hulk|xerxes)\\b"
      "请先确认进程归属、流量用途和客户业务背景，再决定是否手动处置。",
    builtinRule "mass-scan-tool" .high "network-abuse" "疑似大规模扫描工具"
      "\\b(masscan|zmap|zdns|zgrab2?|naabu|rustscan|httpx|nuclei|fscan|kscan|gogo|goscan|scanrs|nmap)\\b"
      "请核实扫描是否经过授权，并结合网络连接、工单或客户说明判断。",
    builtinRule "flood-tool-name" .high "network-abuse" "疑似 Flood/DDoS 程序"
      "\\b(syn[-_]?flood|udp[-_]?flood|http[-_]?flood|slowloris|goldeneye|hulk|xerxes|torshammer|ufonet|mhddos|ddosim|layer[47]|flooder|cc[-_]?attack|stress|hammer|python.*(ddos|flood|attack|hammer)|node.*(ddos|flood|attack))\\b"
      "建议按高风险处理。手动停止前请先保留进程参数和连接证据。",
    builtinRule "proxy-panel" .medium "proxy-panel" "疑似代理面板程序"
      "\\b(3x-ui|x-ui|v2-ui|s-ui|h-ui|marzban|v2board|sspanel|xboard|trojan-panel|hiddify|nebula|alpine|sub-web|subconverter|bt-panel|aapanel|aa-panel)\\b"
      "请确认当前节点规则是否允许此类应用，并结合客户业务说明判断。",
    builtinRule "proxy-core" .medium "proxy-panel" "疑似代理核心进程"
      "\\b(xray|v2ray|sing-?box|trojan(-go|rs)?|hysteria2?|naive|brook|gost|ss-server|ss-rust|shadowsocks(-rust)?|tuic|juicity|clash(-meta)?|mihomo|reality|xtls|vless|vmess|frp[cs]?|nps|npc|chisel|ligolo(-ng)?|rathole|bore)\\b"
      "处置前请核对客户用途、节点政策和实际流量，避免误伤正常服务。",
    builtinRule "miner" .high "resource-abuse" "疑似挖矿进程"
      "\\b(xmrig|xmrig-proxy|xmr-stak|xmrigcc|cpuminer|minerd|ethminer|lolminer|nbminer|teamredminer|t-rex|gminer|bzminer|srbminer|wildrig|rigel|miniZ|SRBMiner|moneroocean)\\b"
      "请结合 CPU 占用、运行时间和服务条款人工确认，违规后再执行处置。",
    builtinRule "bruteforce" .medium "credential-attack" "疑似爆破/撞库工具"
      "\\b(hydra|thc-hydra|medusa|ncrack|patator|crowbar|brutespray|ffuf|gobuster|dirsearch|dirb|sshpass|brute)\\b"
      "请检查外连目标、登录尝试记录和客户说明，再决定是否手动处理。"]

/-! ## The findings -/

section Analysis

variable (tools : AuditTools)

/-- `findMatch`. -/
def findMatch (rule : AuditRuleDefinition) (s : Text) : Option Text :=
  let patternText := rule.patternText.trimmed
  if !rule.enabled then none
  else if patternText = [] then none
  else if rule.matchType = .regex then
    -- an empty match is taken for none
    (tools.regexMatch patternText rule.caseSensitive s).filter (· ≠ [])
  else
    let haystack := if rule.caseSensitive then s else tools.toLowerCase s
    let needle := if rule.caseSensitive then patternText else tools.toLowerCase patternText
    if rule.matchType = .exact then
      if haystack.trimmed = needle.trimmed then some patternText else none
    else if haystack.includes needle then some patternText else none

/-- `isIgnoreActive`. -/
def isIgnoreActive (ignore : AuditIgnoreDefinition) (now : Time) : Bool :=
  let active (expiresAt : Option Time) := expiresAt.all fun time => now < time
  match ignore.expiresAt with
  | none => true
  | some (.text s) => s.isEmpty || active (tools.parseDate s)
  | some (.date time) => active time

/-- Whether an entry of the ignore list fits a finding. -/
def AuditIgnoreDefinition.fits (ignore : AuditIgnoreDefinition) (finding : AuditFinding)
    (now : Time) : Bool :=
  isIgnoreActive tools ignore now
    && ignore.ruleId.all (fun ruleId => ruleId.isEmpty || finding.ruleId == some ruleId)
    && ignore.targetType.all (finding.targetType == ·)
    && ignore.matchText.all fun matchText => matchText.isEmpty ||
      (tools.toLowerCase (finding.title ++ text " " ++ finding.detail ++ text " " ++ finding.evidence)
        ).includes (tools.toLowerCase matchText)

/-- `applyIgnore`: the first entry that fits. -/
def applyIgnore (ignores : List AuditIgnoreDefinition) (now : Time) (finding : AuditFinding) :
    AuditFinding :=
  match ignores.find? fun ignore => ignore.fits tools finding now with
  | none => finding
  | some ignore =>
      { finding with ignored := some true, ignoreReason := ignore.reason.filter (· ≠ []) }

def localizeFindingSubject (targetType : AuditTarget) (subject : Text) : Text :=
  match targetType with
  | .startup => text "启动项 " ++ subject
  | .network => text "网络连接 " ++ subject
  | _ => subject

/-- `buildFindingId`. -/
def buildFindingId (source : String) (index : ℕ) (ruleId : Text) : Text :=
  text source ++ text "-" ++ text (toString index) ++ text "-" ++ ruleId

/-- `buildRuleFinding`. -/
def buildRuleFinding (id : Text) (rule : AuditRuleDefinition) (targetType : AuditTarget)
    (pid : Option ℕ) (subject matchedText evidence : Text) : AuditFinding where
  id := id
  severity := rule.severity
  category := rule.category
  title := rule.name
  detail := localizeFindingSubject targetType subject ++ text " 命中审查规则 " ++ rule.id ++ text "。"
  targetType := targetType
  ruleId := some rule.id
  ruleName := some rule.name
  ruleSource := some rule.source
  matchedText := some matchedText
  recommendation := rule.recommendation.filter (· ≠ [])
  pid := pid
  evidence := Text.slice 800 evidence

/-- The rules for a kind of target that match a text, with what they matched. -/
def matchedRules (rules : List AuditRuleDefinition) (targetType : AuditTarget) (s : Text) :
    List (AuditRuleDefinition × Text) :=
  (rules.filter (targetType ∈ ·.targetTypes)).filterMap fun rule =>
    (findMatch tools rule s).map fun matchedText => (rule, matchedText)

structure AuditInput where
  processes : List AuditProcess
  connections : List AuditConnection
  startupItems : List AuditStartupItem
  rules : List AuditRuleDefinition := []
  ignores : List AuditIgnoreDefinition := []

namespace AuditInput

variable (input : AuditInput)

/-- The rules of the call, or the built-in ones. -/
def activeRules : List AuditRuleDefinition :=
  (if input.rules.isEmpty then BUILTIN_AUDIT_RULES else input.rules).filter (·.enabled)

def processRules (process : AuditProcess) : List (AuditRuleDefinition × Text) :=
  matchedRules tools input.activeRules .process (process.command ++ text " " ++ process.args)

def startupRules (item : AuditStartupItem) : List (AuditRuleDefinition × Text) :=
  matchedRules tools input.activeRules .startup item.command

def processFindings : List AuditFinding :=
  input.processes.zipIdx.flatMap fun (process, index) =>
    (input.processRules tools process).map fun (rule, matchedText) =>
      buildRuleFinding (buildFindingId "process" index rule.id) rule .process (some process.pid)
        (text "PID " ++ text (toString process.pid) ++ text " (" ++ process.command ++ text ")")
        matchedText process.raw

def startupFindings : List AuditFinding :=
  input.startupItems.zipIdx.flatMap fun (item, index) =>
    (input.startupRules tools item).map fun (rule, matchedText) =>
      buildRuleFinding (buildFindingId "startup" index rule.id) rule .startup none
        (text "来源 " ++ item.source) matchedText item.raw

def networkFindings : List AuditFinding :=
  input.connections.zipIdx.flatMap fun (connection, index) =>
    (matchedRules tools input.activeRules .network connection.raw).map fun (rule, matchedText) =>
      buildRuleFinding (buildFindingId "network" index rule.id) rule .network
        (connection.pid.filter (· ≠ 0))
        (connection.protocol ++ text " " ++ connection.local' ++ text " -> " ++ connection.peer)
        matchedText connection.raw

/-- `/^udp/i`. -/
def isUdp (connection : AuditConnection) : Bool :=
  match connection.protocol with
  | .char u :: .char d :: .char p :: _ =>
      (u == 'u' || u == 'U') && (d == 'd' || d == 'D') && (p == 'p' || p == 'P')
  | _ => false

def udpFindings : List AuditFinding :=
  let udpConnections := input.connections.filter isUdp
  if 100 ≤ udpConnections.length then
    [{ id := text "network-high-udp-connection-count"
       severity := .medium
       category := text "network-anomaly"
       title := text "UDP 连接数量偏高"
       detail := text "本次扫描从 ss/netstat 返回 " ++ text (toString udpConnections.length)
        ++ text " 条 UDP 连接记录，请结合业务用途判断是否异常。"
       targetType := .network
       evidence := (text "\n").intercalate ((udpConnections.take 5).map (·.raw)) }]
  else []

def cpuFindings : List AuditFinding :=
  ((input.processes.filter fun process => 80 ≤ process.cpuPercent.getD 0).take 5).map fun process =>
    { id := text "process-" ++ text (toString process.pid) ++ text "-high-cpu"
      severity := .low
      category := text "resource-anomaly"
      title := text "CPU 占用偏高的进程"
      detail := text "PID " ++ text (toString process.pid) ++ text " 当前 CPU 占用为 "
        ++ tools.numberText (process.cpuPercent.getD 0) ++ text "%。"
      targetType := .process
      pid := some process.pid
      evidence := Text.slice 500 process.raw }

/-- `findings`, in the order in which they are pushed. -/
def findings : List AuditFinding :=
  input.processFindings tools ++ input.startupFindings tools ++ input.networkFindings tools
    ++ input.udpFindings ++ input.cpuFindings tools

/-- `annotatedFindings`. -/
def annotatedFindings (now : Time) : List AuditFinding :=
  (input.findings tools).map (applyIgnore tools input.ignores now)

end AuditInput

/-! ## The report -/

/-- `maxSeverity`. -/
def maxSeverity (items : List AuditFinding) : AuditSeverity :=
  items.foldl
    (fun current item =>
      if severityRank current < severityRank item.severity then item.severity else current)
    (if items.isEmpty then .info else .low)

/-- `Number` of the flag; nothing for `NaN`, which is what `undefined` gives. -/
def ignoredNumber : Option Bool → Option ℤ
  | none => none
  | some ignored => some (if ignored then 1 else 0)

/-- The comparator: `NaN` and zero both fall through to the severities. -/
def compareFindings (a b : AuditFinding) : ℤ :=
  let bySeverity := (severityRank b.severity : ℤ) - severityRank a.severity
  match ignoredNumber a.ignored, ignoredNumber b.ignored with
  | some x, some y => if x - y ≠ 0 then x - y else bySeverity
  | _, _ => bySeverity

/-- What `analyzeAuditData` returns, and its lists of processes and startup items after the call,
which have the names of the rules that hit them. -/
structure AuditAnalysis where
  findings : List AuditFinding
  summary : AuditSummary
  processes : List AuditProcess
  startupItems : List AuditStartupItem

/-- `analyzeAuditData`. -/
def analyzeAuditData (input : AuditInput) (now : Time) : AuditAnalysis :=
  let annotatedFindings := input.annotatedFindings tools now
  let activeFindings := annotatedFindings.filter (!·.isIgnored)
  let names (rules : List (AuditRuleDefinition × Text)) := rules.map (·.1.name)
  { findings := annotatedFindings.insertionSort fun a b => compareFindings a b ≤ 0
    summary :=
      { riskLevel := maxSeverity activeFindings
        processCount := input.processes.length
        connectionCount := input.connections.length
        listeningCount := (input.connections.filter fun connection =>
          tools.toUpperCase connection.state = text "LISTEN").length
        startupItemCount := input.startupItems.length
        findingCount := activeFindings.length }
    processes := input.processes.map fun process =>
      { process with findings := process.findings ++ names (input.processRules tools process) }
    startupItems := input.startupItems.map fun item =>
      { item with findings := item.findings ++ names (input.startupRules tools item) } }

end Analysis

/-- The findings that a snapshot keeps. -/
def AuditAnalysis.storedFindings (analysis : AuditAnalysis) : List AuditFinding :=
  analysis.findings.take 80

/-! ## What the report should be -/

/-- The risk of findings: their highest severity, and at least `low` if there are any. -/
structure IsRiskOf (level : AuditSeverity) (findings : List AuditFinding) : Prop where
  bounds : ∀ finding ∈ findings, severityRank finding.severity ≤ severityRank level
  attained : findings ≠ [] → level = .low ∨ ∃ finding ∈ findings, finding.severity = level
  least : findings ≠ [] → severityRank .low ≤ severityRank level
  none : findings = [] → level = .info

/-- A report of findings: each of them once, those that are not ignored first and each group by
falling severity, with the risk of those that are not ignored; of the first 80 none is ignored
if one that is not ignored is left out. -/
structure AuditReportOk (found : List AuditFinding) (analysis : AuditAnalysis) : Prop where
  each_once : analysis.findings.Perm found
  active_first : analysis.findings.Pairwise fun a b => b.isIgnored = false → a.isIgnored = false
  by_severity : analysis.findings.Pairwise fun a b =>
    a.isIgnored = b.isIgnored → severityRank b.severity ≤ severityRank a.severity
  risk : IsRiskOf analysis.summary.riskLevel (found.filter (!·.isIgnored))
  stored : (∃ b ∈ analysis.findings.drop 80, b.isIgnored = false) →
    ∀ a ∈ analysis.storedFindings, a.isIgnored = false

/-- Of two findings, one of them ignored, the severities and the order in which they were found
put the other one first. -/
def SeverityDecides (found : List AuditFinding) : Prop :=
  found.Pairwise fun a b =>
    (a.isIgnored = true → b.isIgnored = false → severityRank a.severity < severityRank b.severity) ∧
      (a.isIgnored = false → b.isIgnored = true → severityRank b.severity ≤ severityRank a.severity)

/-! ## Proofs -/

section Proofs

variable {tools : AuditTools} {input : AuditInput} {now : Time} {items : List AuditFinding}

theorem applyIgnore_ignored (finding : AuditFinding) {ignores : List AuditIgnoreDefinition}
    (h : finding.ignored = none) :
    (applyIgnore tools ignores now finding).ignored = none ∨
      (applyIgnore tools ignores now finding).ignored = some true := by
  unfold applyIgnore
  split
  · exact .inl h
  · exact .inr rfl

/-- Nothing is ignored when it is found. -/
theorem ignored_of_mem_findings {finding : AuditFinding} (h : finding ∈ input.findings tools) :
    finding.ignored = none := by
  simp only [AuditInput.findings, List.mem_append] at h
  rcases h with (((h | h) | h) | h) | h
  · simp only [AuditInput.processFindings, List.mem_flatMap, List.mem_map] at h
    obtain ⟨_, _, _, _, rfl⟩ := h
    rfl
  · simp only [AuditInput.startupFindings, List.mem_flatMap, List.mem_map] at h
    obtain ⟨_, _, _, _, rfl⟩ := h
    rfl
  · simp only [AuditInput.networkFindings, List.mem_flatMap, List.mem_map] at h
    obtain ⟨_, _, _, _, rfl⟩ := h
    rfl
  · simp only [AuditInput.udpFindings] at h
    split at h
    · rw [List.mem_singleton.mp h]
    · cases h
  · obtain ⟨-, -, rfl⟩ := List.mem_map.mp h
    rfl

/-- The flag of a finding of the report is absent or set. -/
theorem ignored_of_mem_annotated {finding : AuditFinding}
    (h : finding ∈ input.annotatedFindings tools now) :
    finding.ignored = none ∨ finding.ignored = some true := by
  obtain ⟨found, hfound, rfl⟩ := List.mem_map.mp h
  exact applyIgnore_ignored found (ignored_of_mem_findings hfound)

/-- With flags that are absent or set the comparator looks at the severities alone. -/
theorem compareFindings_le_iff {a b : AuditFinding} (ha : a.ignored = none ∨ a.ignored = some true)
    (hb : b.ignored = none ∨ b.ignored = some true) :
    compareFindings a b ≤ 0 ↔ severityRank b.severity ≤ severityRank a.severity := by
  have hdiff : compareFindings a b = (severityRank b.severity : ℤ) - severityRank a.severity := by
    rcases ha with ha | ha <;> rcases hb with hb | hb <;> simp [compareFindings, ignoredNumber, ha, hb]
  rw [hdiff]
  omega

/-- `a` is at least as severe as `b`. -/
def AtLeastAsSevere (a b : AuditFinding) : Prop := severityRank b.severity ≤ severityRank a.severity

instance : DecidableRel AtLeastAsSevere := fun _ _ => inferInstanceAs (Decidable (_ ≤ _))

instance : Std.Total AtLeastAsSevere := ⟨fun _ _ => Nat.le_total _ _⟩

instance : IsTrans AuditFinding AtLeastAsSevere := ⟨fun _ _ _ hab hbc => Nat.le_trans hbc hab⟩

theorem findings_eq :
    (analyzeAuditData tools input now).findings
      = (input.annotatedFindings tools now).insertionSort AtLeastAsSevere := by
  have hsort := List.map_insertionSort (fun a b => compareFindings a b ≤ 0) AtLeastAsSevere id
    (input.annotatedFindings tools now) fun a ha b hb =>
      compareFindings_le_iff (ignored_of_mem_annotated ha) (ignored_of_mem_annotated hb)
  rw [List.map_id, List.map_id] at hsort
  exact hsort

/-- The loop of `maxSeverity`: the highest severity of what it starts with and the findings. -/
theorem foldl_severity (items : List AuditFinding) (current : AuditSeverity) :
    let level := items.foldl
      (fun current item =>
        if severityRank current < severityRank item.severity then item.severity else current) current
    severityRank current ≤ severityRank level ∧
      (∀ finding ∈ items, severityRank finding.severity ≤ severityRank level) ∧
      (level = current ∨ ∃ finding ∈ items, finding.severity = level) := by
  induction items generalizing current with
  | nil => simp
  | cons item items ih =>
      simp only [List.foldl_cons]
      split
      · rename_i hlt
        obtain ⟨hcurrent, hbounds, hattained⟩ := ih item.severity
        refine ⟨hlt.le.trans hcurrent, List.forall_mem_cons.mpr ⟨hcurrent, hbounds⟩, .inr ?_⟩
        rcases hattained with hlevel | ⟨finding, hfinding, hlevel⟩
        · exact ⟨item, List.mem_cons_self, hlevel.symm⟩
        · exact ⟨finding, List.mem_cons_of_mem _ hfinding, hlevel⟩
      · rename_i hle
        obtain ⟨hcurrent, hbounds, hattained⟩ := ih current
        refine ⟨hcurrent, List.forall_mem_cons.mpr ⟨(Nat.le_of_not_lt hle).trans hcurrent, hbounds⟩,
          hattained.imp_right ?_⟩
        rintro ⟨finding, hfinding, hlevel⟩
        exact ⟨finding, List.mem_cons_of_mem _ hfinding, hlevel⟩

theorem maxSeverity_isRiskOf : IsRiskOf (maxSeverity items) items := by
  cases items with
  | nil => exact ⟨by simp, fun hne => absurd rfl hne, fun hne => absurd rfl hne, fun _ => rfl⟩
  | cons item items =>
      obtain ⟨hcurrent, hbounds, hattained⟩ := foldl_severity (item :: items) .low
      exact ⟨hbounds, fun _ => hattained, fun _ => hcurrent, fun hnil => by cases hnil⟩

/-- In the report the findings that are not ignored stand first if and only if the severities
happen to decide so. -/
theorem active_first_iff :
    ((analyzeAuditData tools input now).findings.Pairwise fun a b =>
        b.isIgnored = false → a.isIgnored = false) ↔
      SeverityDecides (input.annotatedFindings tools now) := by
  rw [findings_eq, StableSort.pairwise_insertionSort_iff]
  refine List.Pairwise.iff fun {a b} => ?_
  have hlt : severityRank a.severity < severityRank b.severity ↔ ¬AtLeastAsSevere a b := Nat.not_le.symm
  rw [hlt]
  change StableSort.Ordered AtLeastAsSevere _ a b ↔ _ ∧ (_ → _ → AtLeastAsSevere a b)
  by_cases hle : AtLeastAsSevere a b <;> cases ha : a.isIgnored <;> cases hb : b.isIgnored <;>
    simp [StableSort.Ordered, hle, ha, hb]

/-- The report is as it should be if and only if, for every two findings of which one is ignored,
severity and the order of discovery put the other one first. -/
theorem audit_order_iff (tools : AuditTools) (input : AuditInput) (now : Time) :
    AuditReportOk (input.annotatedFindings tools now) (analyzeAuditData tools input now) ↔
      SeverityDecides (input.annotatedFindings tools now) := by
  constructor
  · intro h
    exact active_first_iff.mp h.active_first
  · intro h
    have hfirst := active_first_iff.mpr h
    refine ⟨List.perm_insertionSort _ _, hfirst, ?_, maxSeverity_isRiskOf, ?_⟩
    · rw [findings_eq]
      refine (List.pairwise_insertionSort AtLeastAsSevere _).imp fun {a b} hle _ => ?_
      exact hle
    · exact StableSort.pairwise_split_iff.mp hfirst 80

end Proofs

/-! ## Where the severities do not decide so -/

/-- A runtime in which no pattern matches. -/
def plainTools : AuditTools where
  regexMatch := fun _ _ _ => none
  toLowerCase := id
  toUpperCase := id
  numberText := fun _ => []
  parseDate := fun _ => none

/-- A connection and a process; a rule of low severity hits the one, a rule of high severity the
other, whose hits are ignored. -/
def ignoredHigh : AuditInput where
  processes := [{ pid := 1, cpuPercent := none, command := text "x", args := [], raw := [] }]
  connections := [{ protocol := [], state := [], local' := [], peer := [], pid := none, raw := text "x" }]
  startupItems := []
  rules :=
    [{ id := text "p", severity := .high, category := [], name := [], targetTypes := [.process]
       matchType := .contains, patternText := text "x", caseSensitive := true, source := .custom
       enabled := true },
     { id := text "n", severity := .low, category := [], name := [], targetTypes := [.network]
       matchType := .contains, patternText := text "x", caseSensitive := true, source := .custom
       enabled := true }]
  ignores := [{ targetType := some .process }]

/-- What is ignored stands before what is not. -/
theorem ignored_finding_first :
    ((analyzeAuditData plainTools ignoredHigh 0).findings.map (·.isIgnored) = [true, false]) ∧
      ¬AuditReportOk (ignoredHigh.annotatedFindings plainTools 0)
        (analyzeAuditData plainTools ignoredHigh 0) := by
  have hflags : (analyzeAuditData plainTools ignoredHigh 0).findings.map (·.isIgnored)
      = [true, false] := by decide +kernel
  refine ⟨hflags, fun h => ?_⟩
  have hfirst := List.pairwise_map (R := fun x y : Bool => y = false → x = false)
    (f := AuditFinding.isIgnored).mpr h.active_first
  rw [hflags] at hfirst
  revert hfirst
  decide

end Incudal
