/-
# `NetworkPolicies` — the rollout of a bundle of policies on a host

A bundle becomes a document for the packet filter and a generation of
resolvers, one for each address under a DNS policy.  The new generation is
staged beside the old one and started, then the document is loaded, and last
the old generation is stopped; whatever fails before that takes the new
generation back.

Every command runs under the context of the heartbeat, which can be done before
the last of them.  A `kill` that is not run leaves a resolver behind whose pid
file is removed all the same (`rollout_sound_iff`).
-/
import Mathlib.Data.List.Sort
import Incudal.Lib.Keyed

namespace Incudal

/-! ## Bundles -/

/-- A value in the configuration of a policy, as it is decoded. -/
inductive ConfigValue
  | flag (value : Bool)
  | text (value : String)
  | list (items : List ConfigValue)
  | other

inductive PolicyType
  | ipBlock | udpBlock | pingBlock | dnsLock | dnsOverride | other
deriving DecidableEq, Repr

structure PolicyTarget where
  incusId : String
  mac : String
deriving DecidableEq, Repr

structure NetworkPolicy where
  id : ℤ
  type : PolicyType
  config : List (String × ConfigValue)
  targets : List PolicyTarget

/-- What the agent takes from the library of its language.  `parseCIDR` and `parseIP` tell whether
an address is one of IPv4. -/
structure PolicyTools where
  trimSpace : String → String
  toLower : String → String
  quote : String → String
  parseCIDR : String → Option Bool
  parseIP : String → Option Bool

structure DnsProfile where
  mac : String
  upstreams : List String := []
  lines : List String := []
  blockDoT : Bool := false
deriving DecidableEq, Repr

/-- What the loop over the policies collects. -/
structure PolicyRules where
  ipv4Blocks : List String := []
  ipv6Blocks : List String := []
  transportBlocks : List String := []
  pingBlocks : List String := []
  profiles : List DnsProfile := []
deriving DecidableEq, Repr

section Rules

variable (tools : PolicyTools)

/-- `macPattern`. -/
def isMac (s : String) : Bool :=
  let groups := s.toList.splitOn ':'
  groups.length == 6 && groups.all fun group => group.length == 2 &&
    group.all fun c => c.isDigit || 'a' ≤ c && c ≤ 'f'

def isDomainLabel (label : List Char) : Bool :=
  let alnum : Char → Bool := fun c => c.isDigit || c.isLower
  label.length ≤ 63 && label.all (fun c => alnum c || c == '-') &&
    label.head?.any alnum && label.getLast?.any alnum

/-- `domainPattern`: labels, and a last one of letters; a star may stand in front. -/
def isDomain (s : String) : Bool :=
  let labels := s.toList.splitOn '.'
  let labels := if labels.head? = some ['*'] then labels.tail else labels
  2 ≤ labels.length && labels.dropLast.all isDomainLabel &&
    labels.getLast?.any fun last => 2 ≤ last.length && last.length ≤ 63 && last.all Char.isLower

def PolicyTarget.normalMac (target : PolicyTarget) : String :=
  tools.toLower (tools.trimSpace target.mac)

/-- `readStrings`. -/
def readStrings : Option ConfigValue → List String
  | some (.list items) => items.filterMap fun
      | .text value => some (tools.trimSpace value)
      | _ => none
  | _ => []

def NetworkPolicy.strings (policy : NetworkPolicy) (field : String) : List String :=
  readStrings tools (policy.config.lookup field)

/-- `unique`. -/
def uniqueStrings (values : List String) : List String :=
  (values.foldl (fun out value => if value ≠ "" ∧ value ∉ out then out ++ [value] else out) [])

def normalizeCIDR (value : String) : String :=
  if '/' ∈ value.toList then value
  else if tools.parseIP value = some true then value ++ "/32"
  else value ++ "/128"

def trimStar (domain : String) : String :=
  match domain.toList with
  | '*' :: '.' :: rest => String.ofList rest
  | _ => domain

/-- The lines of a domain under an override. -/
def overrideLines (action : String) (addresses : List String) (domain : String) : List String :=
  let domain := tools.toLower (trimStar domain)
  if !isDomain domain then []
  else if action = "nxdomain" then ["address=/" ++ domain ++ "/"]
  else if action = "zero" then
    ["address=/" ++ domain ++ "/0.0.0.0", "address=/" ++ domain ++ "/::"]
  else
    (addresses.filter fun address => (tools.parseIP address).isSome).map fun address =>
      "address=/" ++ domain ++ "/" ++ address

/-- What a DNS policy adds to the profile of an address. -/
def NetworkPolicy.addTo (policy : NetworkPolicy) (profile : DnsProfile) : DnsProfile :=
  let upstreams := (policy.strings tools "upstreams").filter fun upstream =>
    (tools.parseIP upstream).isSome
  let blockDoT := match policy.config.lookup "blockDot" with
    | some (.flag true) => true
    | _ => profile.blockDoT
  let action := match policy.config.lookup "action" with
    | some (.text action) => action
    | _ => ""
  let lines :=
    if policy.type = .dnsOverride then
      (policy.strings tools "domains").flatMap
        (overrideLines tools action (policy.strings tools "addresses"))
    else []
  { profile with
    upstreams := profile.upstreams ++ upstreams
    blockDoT
    lines := profile.lines ++ lines }

/-- The blocked ranges of one kind. -/
def NetworkPolicy.cidrBlocks (policy : NetworkPolicy) (mac : String) (v4 : Bool) : List String :=
  let cidrs := (policy.strings tools "cidrs").filter fun cidr =>
    tools.parseCIDR (normalizeCIDR tools cidr) = some v4
  cidrs.map fun cidr =>
    "ether saddr " ++ mac ++ (if v4 then " ip" else " ip6") ++ " daddr " ++ cidr ++ " counter drop"

/-- One target of a policy. -/
def NetworkPolicy.addTarget (policy : NetworkPolicy) (rules : PolicyRules)
    (target : PolicyTarget) : PolicyRules :=
  let mac := target.normalMac tools
  match policy.type with
  | .ipBlock =>
      { rules with
        ipv4Blocks := rules.ipv4Blocks ++ policy.cidrBlocks tools mac true
        ipv6Blocks := rules.ipv6Blocks ++ policy.cidrBlocks tools mac false }
  | .udpBlock =>
      { rules with transportBlocks := rules.transportBlocks ++
          ["ether saddr " ++ mac ++ " udp counter drop",
            "ether daddr " ++ mac ++ " udp counter drop"] }
  | .pingBlock =>
      { rules with pingBlocks := rules.pingBlocks ++
          ["ether saddr " ++ mac ++ " icmp type echo-request counter drop",
            "ether daddr " ++ mac ++ " icmp type echo-request counter drop",
            "ether saddr " ++ mac ++ " icmpv6 type echo-request counter drop",
            "ether daddr " ++ mac ++ " icmpv6 type echo-request counter drop"] }
  | .dnsLock | .dnsOverride =>
      { rules with profiles :=
          if rules.profiles.any fun profile => profile.mac == mac then
            Keyed.modify DnsProfile.mac mac (policy.addTo tools) rules.profiles
          else rules.profiles ++ [policy.addTo tools { mac }] }
  | .other => rules

/-- The two loops over the policies: the first looks for a target without an address. -/
def collectRules (policies : List NetworkPolicy) : Except String PolicyRules :=
  let targets := policies.flatMap fun policy => policy.targets.map (Prod.mk policy)
  match targets.find? fun entry => !isMac (entry.2.normalMac tools) with
  | some (policy, target) =>
      .error ("network policy " ++ toString policy.id ++ " target " ++
        tools.quote target.incusId ++ " is missing a valid MAC")
  | none => .ok (targets.foldl (fun rules entry => entry.1.addTarget tools rules entry.2) {})

end Rules

/-! ## The host -/

/-- The directory of the state, and the generations in it. -/
inductive PolicyDir
  | root
  | generation (name : String)
deriving DecidableEq, Repr

structure PolicyPath where
  dir : PolicyDir
  name : String
deriving DecidableEq, Repr

/-- A file `dns-*.pid` and the number in it. -/
structure PidFile where
  path : PolicyPath
  pid : ℕ
deriving DecidableEq, Repr

/-- A file `dns-*.conf`. -/
structure ResolverConfig where
  path : PolicyPath
  lines : List String
deriving DecidableEq, Repr

/-- A process of `dnsmasq` that the agent has started. -/
structure Resolver where
  pid : ℕ
  dir : PolicyDir
  port : ℕ
deriving DecidableEq, Repr

/-- The host: the documents that make up the table, one unless a document was loaded over another;
the processes; the files of the state. -/
structure PolicyHost where
  table : List String := []
  running : List Resolver := []
  pidFiles : List PidFile := []
  configs : List ResolverConfig := []
  generations : List String := []
deriving DecidableEq, Repr

/-- The commands that are run under the context. -/
inductive PolicyCommand
  | check (index : ℕ)
  | start (index : ℕ)
  | list
  | load
  | kill (path : PolicyPath)
deriving DecidableEq, Repr

/-- An error and the output beside it. -/
abbrev CommandError := String × String

/-- What came of a start: the process that is there afterwards, with its pid file, and the error. -/
structure DnsmasqStart where
  pid : Option ℕ
  error : Option CommandError := none
deriving DecidableEq, Repr

/-- Everything that the host decides: `live` tells of each command whether the context is not done
when its turn comes, the rest what comes of a command that is run. -/
structure PolicyEnv where
  mkdirAll : Option String := none
  dnsmasqInstalled : Bool := true
  detected : String := ""
  mkdirTemp : Except String String
  nanos : ℕ := 0
  portFree : ℕ → Bool := fun _ => true
  writeConfig : ℕ → Option String := fun _ => none
  live : PolicyCommand → Bool := fun _ => true
  contextError : String := "context deadline exceeded"
  check : ℕ → Option CommandError := fun _ => none
  start : ℕ → DnsmasqStart
  listFails : Bool := false
  load : Option CommandError := none

/-- A command is not started when the context is done. -/
def PolicyEnv.run (env : PolicyEnv) (command : PolicyCommand) (outcome : Option CommandError) :
    Option CommandError :=
  if env.live command then outcome else some (env.contextError, "")

def PolicyEnv.dnsmasq (env : PolicyEnv) (index : ℕ) : DnsmasqStart :=
  if env.live (.start index) then env.start index else ⟨none, some (env.contextError, "")⟩

def commandText (what : String) (error : CommandError) : String :=
  what ++ ": " ++ error.1 ++ ": " ++ error.2

/-! ## A generation -/

structure StagedProfile where
  mac : String
  index : ℕ
  port : ℕ
  blockDoT : Bool
  config : List String
deriving DecidableEq, Repr

structure DnsRollout where
  dir : String
  profiles : List StagedProfile
deriving DecidableEq, Repr

def pidPath (dir : String) (index : ℕ) : PolicyPath :=
  ⟨.generation dir, "dns-" ++ toString index ++ ".pid"⟩

def PolicyPath.text (path : PolicyPath) : String :=
  match path.dir with
  | .root => "/etc/incudal-agent/network-policy/" ++ path.name
  | .generation name => "/etc/incudal-agent/network-policy/" ++ name ++ "/" ++ path.name

def DnsRollout.configs (rollout : DnsRollout) : List ResolverConfig :=
  rollout.profiles.map fun profile =>
    ⟨⟨.generation rollout.dir, "dns-" ++ toString profile.index ++ ".conf"⟩, profile.config⟩

/-- The loop over the ports: this one and at most `more` behind it. -/
def nextFreePort (portFree : ℕ → Bool) : ℕ → ℕ → Option ℕ
  | 0, port => if portFree port then some port else none
  | more + 1, port => if portFree port then some port else nextFreePort portFree more (port + 1)

def DnsProfile.config (profile : DnsProfile) (bridgeInterface : String) (port : ℕ) : List String :=
  ["no-resolv", "no-hosts", "bind-dynamic", "interface=" ++ bridgeInterface,
    "port=" ++ toString port, "cache-size=1000", "domain-needed", "bogus-priv"] ++
  (uniqueStrings profile.upstreams).map ("server=" ++ ·) ++ uniqueStrings profile.lines

section Rollout

variable (tools : PolicyTools) (env : PolicyEnv)

/-- The profiles from `index` on, at ports from `port` on. -/
def stageProfiles (bridgeInterface : String) :
    ℕ → ℕ → List DnsProfile → Except String (List StagedProfile)
  | _, _, [] => .ok []
  | index, port, profile :: rest =>
      match nextFreePort env.portFree (65534 - port) port with
      | none => .error ("no free TCP/UDP port available for dnsmasq profile " ++ toString index)
      | some port =>
          match env.writeConfig index with
          | some error => .error error
          | none =>
              match stageProfiles bridgeInterface (index + 1) (port + 1) rest with
              | .error error => .error error
              | .ok staged =>
                  .ok (⟨profile.mac, index, port, profile.blockDoT,
                    profile.config bridgeInterface port⟩ :: staged)

/-- `prepareDNSRollout`: an error leaves no directory behind. -/
def prepareDNSRollout (profiles : List DnsProfile) (bridgeInterface : String) :
    Except String DnsRollout :=
  let bridgeInterface :=
    if tools.trimSpace bridgeInterface = "" then "incus0" else bridgeInterface
  let profiles := profiles.insertionSort fun a b => a.mac ≤ b.mac
  match profiles.find? fun profile => (uniqueStrings profile.upstreams).isEmpty with
  | some profile => .error ("DNS policy for " ++ profile.mac ++ " has no configured upstream")
  | none =>
      match env.mkdirTemp with
      | .error error => .error error
      | .ok dir =>
          match stageProfiles env bridgeInterface 0 (10000 + env.nanos % 40000) profiles with
          | .error error => .error error
          | .ok staged => .ok ⟨dir, staged⟩

/-- `startDNSRollout`: what was started up to the end or the first error. -/
def startDNSRollout (dir : String) : List StagedProfile → List (StagedProfile × ℕ) × Option String
  | [] => ([], none)
  | profile :: rest =>
      match env.run (.check profile.index) (env.check profile.index) with
      | some error => ([], some (commandText "validate dnsmasq profile" error))
      | none =>
          match env.dnsmasq profile.index with
          | ⟨none, some error⟩ => ([], some (commandText "start dnsmasq profile" error))
          | ⟨some pid, some error⟩ =>
              ([(profile, pid)], some (commandText "start dnsmasq profile" error))
          | ⟨none, none⟩ => ([], some ("dnsmasq profile did not create pid file: stat " ++
              (pidPath dir profile.index).text ++ ": no such file or directory"))
          | ⟨some pid, none⟩ =>
              let (started, error) := startDNSRollout dir rest
              ((profile, pid) :: started, error)

/-! ## The effects on the host -/

/-- The resolvers of a start. -/
def startedResolvers (dir : String) (started : List (StagedProfile × ℕ)) : List Resolver :=
  started.map fun entry => ⟨entry.2, .generation dir, entry.1.port⟩

def startedFiles (dir : String) (started : List (StagedProfile × ℕ)) : List PidFile :=
  started.map fun entry => ⟨pidPath dir entry.1.index, entry.2⟩

namespace PolicyHost

/-- The directory of a generation and its configurations. -/
def stage (rollout : DnsRollout) (host : PolicyHost) : PolicyHost :=
  { host with
    configs := host.configs ++ rollout.configs
    generations := host.generations ++ [rollout.dir] }

def start (dir : String) (started : List (StagedProfile × ℕ)) (host : PolicyHost) : PolicyHost :=
  { host with
    running := host.running ++ startedResolvers dir started
    pidFiles := host.pidFiles ++ startedFiles dir started }

/-- `stopDNSPid`: the number in the file is killed, if the command is run. -/
def stopDNSPid (host : PolicyHost) (path : PolicyPath) : PolicyHost :=
  let pid := match Keyed.lookup PidFile.path path host.pidFiles with
    | some file => file.pid
    | none => 0
  { host with
    running :=
      if 1 < pid ∧ env.live (.kill path) then host.running.filter fun r => r.pid ≠ pid
      else host.running
    pidFiles := Keyed.erase PidFile.path path host.pidFiles }

/-- `os.RemoveAll` of a generation. -/
def removeGeneration (host : PolicyHost) (name : String) : PolicyHost :=
  { host with
    pidFiles := host.pidFiles.filter fun file => file.path.dir ≠ .generation name
    configs := host.configs.filter fun config => config.path.dir ≠ .generation name
    generations := host.generations.filter fun generation => generation ≠ name }

/-- `stopDNSRollout`, and the directory is removed. -/
def dropRollout (rollout : DnsRollout) (host : PolicyHost) : PolicyHost :=
  let paths := rollout.profiles.map fun profile => pidPath rollout.dir profile.index
  (paths.foldl (stopDNSPid env) host).removeGeneration rollout.dir

/-- `replaceNftTable`: a document that is loaded over a table joins it, unless it deletes the table
first; `nft -f` is all or nothing. -/
def replaceNftTable (rules : String) (host : PolicyHost) : PolicyHost × Option String :=
  let tableExists := env.live .list && !env.listFails && !host.table.isEmpty
  match env.run .load env.load with
  | some error => (host, some (commandText "load nft policy" error))
  | none => ({ host with table := if tableExists then [rules] else host.table ++ [rules] }, none)

/-- The pid files, of the root first, less those of one generation. -/
def oldPidPaths (keepDir : String) (host : PolicyHost) : List PolicyPath :=
  let paths := host.pidFiles.map PidFile.path
  let entries := (paths.filter fun path => path.dir = .root) ++
    paths.filter fun path => path.dir ≠ .root
  entries.filter fun path => path.dir ≠ .generation keepDir

def oldGenerations (keepDir : String) (host : PolicyHost) : List String :=
  host.generations.filter fun name => name ≠ keepDir

/-- `stopOldDNSExcept`. -/
def stopOldDNSExcept (keepDir : String) (host : PolicyHost) : PolicyHost :=
  let host := (host.oldPidPaths keepDir).foldl (stopDNSPid env) host
  let configs := host.configs.filter fun config => config.path.dir ≠ .root
  let host := { host with configs }
  (host.oldGenerations keepDir).foldl removeGeneration host

end PolicyHost

/-- The document for the packet filter. -/
def policyDocument (rules : PolicyRules) (rollout : DnsRollout) (bridgeName : String) : String :=
  let dnsRules := rollout.profiles.flatMap fun profile =>
    ["ether saddr " ++ profile.mac ++ " udp dport 53 redirect to :" ++ toString profile.port,
      "ether saddr " ++ profile.mac ++ " tcp dport 53 redirect to :" ++ toString profile.port]
  let dotRules := (rollout.profiles.filter StagedProfile.blockDoT).map fun profile =>
    "ether saddr " ++ profile.mac ++ " tcp dport 853 counter reject"
  let ports := rollout.profiles.flatMap fun profile =>
    [" iifname " ++ tools.quote bridgeName ++ " udp dport " ++ toString profile.port ++
        " counter accept",
      " iifname " ++ tools.quote bridgeName ++ " tcp dport " ++ toString profile.port ++
        " counter accept",
      " udp dport " ++ toString profile.port ++ " counter drop",
      " tcp dport " ++ toString profile.port ++ " counter drop"]
  let lines := ["table inet incudal_managed_policy \x7b",
      " chain forward \x7b type filter hook forward priority -10; policy accept;"] ++
    rules.ipv4Blocks ++ rules.ipv6Blocks ++ rules.transportBlocks ++ rules.pingBlocks ++ dotRules ++
    [" \x7d", " chain input \x7b type filter hook input priority -10; policy accept;",
      " iifname \"lo\" accept"] ++ ports ++
    [" \x7d", " chain prerouting \x7b type nat hook prerouting priority -105; policy accept;"] ++
    dnsRules ++ [" \x7d", "\x7d"]
  "\n".intercalate lines ++ "\n"

/-- The bridge: the one of the configuration, or else the one that the addresses are found on. -/
def bridgeName (configured : String) (profiles : List DnsProfile) : String :=
  if configured = "" ∧ profiles ≠ [] then
    if env.detected ≠ "" then env.detected else "incus0"
  else configured

/-- What `apply` does before it touches a running resolver: the rules and the staged generation. -/
def preparePolicies (policies : List NetworkPolicy) (bridgeInterface : String) :
    Except String (PolicyRules × DnsRollout × String) :=
  match env.mkdirAll with
  | some error => .error error
  | none =>
      match collectRules tools policies with
      | .error error => .error error
      | .ok rules =>
          if rules.profiles ≠ [] ∧ env.dnsmasqInstalled = false then
            .error "dnsmasq is required for enabled DNS policies"
          else
            let bridge := bridgeName env (tools.trimSpace bridgeInterface) rules.profiles
            match prepareDNSRollout tools env rules.profiles bridge with
            | .error error => .error error
            | .ok rollout => .ok (rules, rollout, bridge)

/-- The end of `apply`, with what came of the start. -/
def finishRollout (document : String) (rollout : DnsRollout) (error : Option String)
    (host : PolicyHost) : PolicyHost × Option String :=
  match error with
  | some error => (host.dropRollout env rollout, some error)
  | none =>
      match host.replaceNftTable env document with
      | (host, some error) => (host.dropRollout env rollout, some error)
      | (host, none) => (host.stopOldDNSExcept env rollout.dir, none)

/-- `apply`. -/
def applyPolicies (policies : List NetworkPolicy) (bridgeInterface : String) (host : PolicyHost) :
    PolicyHost × Option String :=
  match preparePolicies tools env policies bridgeInterface with
  | .error error => (host, some error)
  | .ok (rules, rollout, bridge) =>
      let (started, error) := startDNSRollout env rollout.dir rollout.profiles
      finishRollout env (policyDocument tools rules rollout bridge) rollout error
        ((host.stage rollout).start rollout.dir started)

end Rollout

/-! ## Ports and files of a generation -/

section Stage

variable {tools : PolicyTools} {env : PolicyEnv}

theorem le_of_nextFreePort {portFree : ℕ → Bool} {more port p : ℕ}
    (h : nextFreePort portFree more port = some p) : port ≤ p := by
  induction more generalizing port with
  | zero =>
      simp only [nextFreePort] at h
      split at h
      · cases h
        exact le_rfl
      · cases h
  | succ more ih =>
      simp only [nextFreePort] at h
      split at h
      · cases h
        exact le_rfl
      · exact (Nat.le_succ port).trans (ih h)

/-- The profiles of a generation have rising ports and rising indices. -/
theorem stageProfiles_rise {bridge : String} {index port : ℕ} {profiles : List DnsProfile}
    {staged : List StagedProfile} (h : stageProfiles env bridge index port profiles = .ok staged) :
    (∀ p ∈ staged, index ≤ p.index ∧ port ≤ p.port) ∧
      staged.Pairwise fun p q => p.index < q.index ∧ p.port < q.port := by
  induction profiles generalizing index port staged with
  | nil =>
      cases h
      exact ⟨fun _ hp => (List.not_mem_nil hp).elim, .nil⟩
  | cons profile rest ih =>
      simp only [stageProfiles] at h
      split at h
      · cases h
      rename_i free hfree
      split at h
      · cases h
      split at h
      · cases h
      rename_i staged' hstaged
      cases h
      have hle := le_of_nextFreePort hfree
      obtain ⟨hfrom, hrise⟩ := ih hstaged
      refine ⟨List.forall_mem_cons.mpr ⟨⟨le_rfl, hle⟩, fun p hp => ?_⟩,
        hrise.cons fun p hp => ?_⟩
      · obtain ⟨hindex, hport⟩ := hfrom p hp
        exact ⟨Nat.le_of_succ_le hindex, hle.trans (Nat.le_of_succ_le hport)⟩
      · exact hfrom p hp

theorem prepareDNSRollout_rise {profiles : List DnsProfile} {bridge : String}
    {rollout : DnsRollout} (h : prepareDNSRollout tools env profiles bridge = .ok rollout) :
    env.mkdirTemp = .ok rollout.dir ∧
      rollout.profiles.Pairwise fun p q => p.index < q.index ∧ p.port < q.port := by
  simp only [prepareDNSRollout] at h
  split at h
  · cases h
  split at h
  · cases h
  rename_i dir hdir
  split at h
  · cases h
  rename_i staged hstaged
  cases h
  exact ⟨hdir, (stageProfiles_rise hstaged).2⟩

theorem preparePolicies_rise {policies : List NetworkPolicy} {bridgeInterface bridge : String}
    {rules : PolicyRules} {rollout : DnsRollout}
    (h : preparePolicies tools env policies bridgeInterface = .ok (rules, rollout, bridge)) :
    env.mkdirTemp = .ok rollout.dir ∧
      rollout.profiles.Pairwise fun p q => p.index < q.index ∧ p.port < q.port := by
  simp only [preparePolicies] at h
  split at h
  · cases h
  split at h
  · cases h
  split at h
  · cases h
  split at h
  · cases h
  rename_i staged hprepare
  cases h
  exact prepareDNSRollout_rise hprepare

theorem pidPath_inj {dir : String} {i j : ℕ} (h : pidPath dir i = pidPath dir j) : i = j := by
  have hname := congrArg PolicyPath.name h
  simp only [pidPath, String.append_left_inj, String.append_right_inj] at hname
  have hdigits : Nat.toDigits 10 i = Nat.toDigits 10 j := by
    rw [← Nat.toList_repr, ← Nat.toList_repr]
    exact congrArg String.toList hname
  rw [← Nat.ofDigitChars_ten_toDigits (n := i), hdigits, Nat.ofDigitChars_ten_toDigits]

variable (env) in
/-- What a start leaves: the resolvers of some profiles, of all of them without an error. -/
structure StartSpec (profiles : List StagedProfile)
    (result : List (StagedProfile × ℕ) × Option String) : Prop where
  sublist : (result.1.map Prod.fst).Sublist profiles
  all : result.2 = none → result.1.map Prod.fst = profiles
  pid : ∀ entry ∈ result.1, (env.start entry.1.index).pid = some entry.2

theorem StartSpec.nothing (profiles : List StagedProfile) (error : String) :
    StartSpec env profiles ([], some error) where
  sublist := List.nil_sublist _
  all h := by cases h
  pid _ h := (List.not_mem_nil h).elim

variable (env) in
theorem startDNSRollout_spec (dir : String) (profiles : List StagedProfile) :
    StartSpec env profiles (startDNSRollout env dir profiles) := by
  induction profiles with
  | nil => exact ⟨.slnil, fun _ => rfl, fun _ h => (List.not_mem_nil h).elim⟩
  | cons profile rest ih =>
      have hpid : ∀ pid, (env.dnsmasq profile.index).pid = some pid →
          (env.start profile.index).pid = some pid := by
        intro pid h
        simp only [PolicyEnv.dnsmasq] at h
        split at h
        · exact h
        · cases h
      simp only [startDNSRollout]
      split
      · exact .nothing _ _
      split
      · exact .nothing _ _
      · rename_i pid error hstart
        refine ⟨by simp, fun h => (by cases h), fun entry h => ?_⟩
        cases List.mem_singleton.mp h
        exact hpid pid (by rw [hstart])
      · exact .nothing _ _
      · rename_i pid hstart
        refine ⟨ih.sublist.cons_cons _, fun h => ?_, List.forall_mem_cons.mpr ⟨?_, ih.pid⟩⟩
        · exact congrArg _ (ih.all h)
        · exact hpid pid (by rw [hstart])

end Stage

/-! ## Cleaning up -/

/-- The `kill` for this file is run and reaches the process. -/
def PolicyEnv.Stops (env : PolicyEnv) (file : PidFile) (pid : ℕ) : Prop :=
  1 < file.pid ∧ env.live (.kill file.path) = true ∧ file.pid = pid

instance (env : PolicyEnv) (file : PidFile) (pid : ℕ) : Decidable (env.Stops file pid) :=
  inferInstanceAs (Decidable (_ ∧ _ ∧ _))

/-- A path has one file, and files lie in directories that are there. -/
structure PolicyHost.Ok (host : PolicyHost) : Prop where
  paths : (host.pidFiles.map PidFile.path).Nodup
  pidDirs : ∀ file ∈ host.pidFiles, ∀ name, file.path.dir = .generation name →
    name ∈ host.generations
  configDirs : ∀ config ∈ host.configs, ∀ name, config.path.dir = .generation name →
    name ∈ host.generations

/-- What the system promises: a temporary directory is new, and so is the number of a process. -/
structure PolicyEnv.Fresh (env : PolicyEnv) (host : PolicyHost) : Prop where
  dir : ∀ name, env.mkdirTemp = .ok name → name ∉ host.generations
  pid : ∀ i pid, (env.start i).pid = some pid → 1 < pid ∧ ∀ r ∈ host.running, r.pid ≠ pid
  pids : ∀ i j pid, (env.start i).pid = some pid → (env.start j).pid = some pid → i = j

section Clean

theorem filter_append_left {α : Type} {l l' : List α} {p : α → Bool} (hold : ∀ a ∈ l, p a = true)
    (hnew : ∀ a ∈ l', ¬ p a = true) : (l ++ l').filter p = l := by
  rw [List.filter_append, List.filter_eq_self.mpr hold, List.filter_eq_nil_iff.mpr hnew,
    List.append_nil]

theorem filter_append_right {α : Type} {l l' : List α} {p : α → Bool}
    (hold : ∀ a ∈ l, ¬ p a = true) (hnew : ∀ a ∈ l', p a = true) : (l ++ l').filter p = l' := by
  rw [List.filter_append, List.filter_eq_nil_iff.mpr hold, List.filter_eq_self.mpr hnew,
    List.nil_append]

variable {tools : PolicyTools} (env : PolicyEnv)

theorem stopDNSPid_eq {host : PolicyHost} (hnodup : (host.pidFiles.map PidFile.path).Nodup)
    (path : PolicyPath) :
    host.stopDNSPid env path =
      { host with
        running := host.running.filter fun r =>
          ∀ file ∈ host.pidFiles, file.path = path → ¬ env.Stops file r.pid
        pidFiles := host.pidFiles.filter fun file => file.path ≠ path } := by
  have hrunning : (host.stopDNSPid env path).running = host.running.filter fun r =>
      ∀ file ∈ host.pidFiles, file.path = path → ¬ env.Stops file r.pid := by
    cases hl : Keyed.lookup PidFile.path path host.pidFiles with
    | none =>
        have hnone := Keyed.lookup_eq_none_iff.mp hl
        simp only [PolicyHost.stopDNSPid, hl, Nat.not_lt_zero, false_and, if_false]
        refine (List.filter_eq_self.mpr fun r _ => decide_eq_true fun file hfile hpath => ?_).symm
        exact (hnone file hfile hpath).elim
    | some file =>
        obtain ⟨hmem, hpath⟩ := Keyed.mem_of_lookup hl
        have honly : ∀ other ∈ host.pidFiles, other.path = path → other = file := by
          intro other hother hp
          have := Keyed.lookup_of_mem hnodup hother
          rw [hp, hl] at this
          exact (Option.some.inj this).symm
        have hkeep : ∀ r : Resolver,
            (∀ other ∈ host.pidFiles, other.path = path → ¬ env.Stops other r.pid) ↔
              ¬ env.Stops file r.pid := by
          intro r
          constructor
          · exact fun h => h file hmem hpath
          · intro h other hother hp
            rwa [honly other hother hp]
        simp only [PolicyHost.stopDNSPid, hl, hkeep]
        subst hpath
        by_cases hkill : 1 < file.pid ∧ env.live (.kill file.path) = true
        · rw [if_pos hkill]
          refine List.filter_congr fun r _ => decide_eq_decide.mpr ?_
          simp only [PolicyEnv.Stops, hkill, true_and]
          exact ne_comm
        · rw [if_neg hkill]
          have hnot : ∀ r : Resolver, ¬ env.Stops file r.pid := fun r h => hkill ⟨h.1, h.2.1⟩
          exact (List.filter_eq_self.mpr fun r _ => decide_eq_true (hnot r)).symm
  rw [← hrunning]
  rfl

/-- Files that are stopped one after the other: a process stays that none of them reaches. -/
theorem foldl_stopDNSPid (paths : List PolicyPath) {host : PolicyHost}
    (hnodup : (host.pidFiles.map PidFile.path).Nodup) :
    paths.foldl (PolicyHost.stopDNSPid env) host =
      { host with
        running := host.running.filter fun r =>
          ∀ file ∈ host.pidFiles, file.path ∈ paths → ¬ env.Stops file r.pid
        pidFiles := host.pidFiles.filter fun file => file.path ∉ paths } := by
  induction paths generalizing host with
  | nil => simp
  | cons path paths ih =>
      rw [List.foldl_cons, stopDNSPid_eq env hnodup,
        ih (hnodup.sublist (List.filter_sublist.map PidFile.path))]
      simp only [List.filter_filter]
      congr 1
      · refine List.filter_congr fun r _ => ?_
        rw [← Bool.decide_and, decide_eq_decide]
        constructor
        · rintro ⟨hlater, hfirst⟩ file hfile hpath
          by_cases h : file.path = path
          · exact hfirst file hfile h
          · exact hlater file (List.mem_filter.mpr ⟨hfile, decide_eq_true h⟩)
              ((List.mem_cons.mp hpath).resolve_left h)
        · intro h
          exact ⟨fun file hfile hpath =>
              h file (List.mem_filter.mp hfile).1 (List.mem_cons_of_mem _ hpath),
            fun file hfile hpath => h file hfile (hpath ▸ List.mem_cons_self)⟩
      · refine List.filter_congr fun file _ => ?_
        rw [← Bool.decide_and, decide_eq_decide, List.mem_cons, not_or, and_comm]

variable {env}

theorem filter_outside {α : Type} (dir : α → PolicyDir) (name : String) (names : List String)
    (rows : List α) :
    (rows.filter fun row => dir row ≠ .generation name).filter
        (fun row => ∀ name ∈ names, dir row ≠ .generation name) =
      rows.filter fun row => ∀ n ∈ name :: names, dir row ≠ .generation n := by
  rw [List.filter_filter]
  refine List.filter_congr fun row _ => ?_
  rw [← Bool.decide_and, decide_eq_decide, List.forall_mem_cons]
  exact and_comm

theorem foldl_removeGeneration (names : List String) (host : PolicyHost) :
    names.foldl PolicyHost.removeGeneration host =
      { host with
        pidFiles := host.pidFiles.filter fun file =>
          ∀ name ∈ names, file.path.dir ≠ .generation name
        configs := host.configs.filter fun config =>
          ∀ name ∈ names, config.path.dir ≠ .generation name
        generations := host.generations.filter fun generation => generation ∉ names } := by
  induction names generalizing host with
  | nil => simp
  | cons name names ih =>
      have hgenerations : (host.generations.filter fun generation => generation ≠ name).filter
          (fun generation => generation ∉ names) =
            host.generations.filter fun generation => generation ∉ name :: names := by
        rw [List.filter_filter]
        refine List.filter_congr fun generation _ => ?_
        rw [← Bool.decide_and, decide_eq_decide, List.mem_cons, not_or]
        exact and_comm
      rw [List.foldl_cons, ih, ← filter_outside (fun file : PidFile => file.path.dir),
        ← filter_outside (fun config : ResolverConfig => config.path.dir), ← hgenerations]
      rfl

theorem mem_oldPidPaths {host : PolicyHost} {file : PidFile} (hfile : file ∈ host.pidFiles)
    (keepDir : String) :
    file.path ∈ host.oldPidPaths keepDir ↔ file.path.dir ≠ .generation keepDir := by
  have hpath := List.mem_map_of_mem (f := PidFile.path) hfile
  simp only [PolicyHost.oldPidPaths]
  rw [List.mem_filter, List.mem_append, List.mem_filter, List.mem_filter, decide_eq_true_eq,
    decide_eq_true_eq, decide_eq_true_eq]
  exact ⟨And.right, fun hdir => ⟨(em _).imp (⟨hpath, ·⟩) (⟨hpath, ·⟩), hdir⟩⟩

theorem mem_oldGenerations {host : PolicyHost} {keepDir name : String} :
    name ∈ host.oldGenerations keepDir ↔ name ∈ host.generations ∧ name ≠ keepDir := by
  rw [PolicyHost.oldGenerations, List.mem_filter, decide_eq_true_eq]

section Generation

variable {host : PolicyHost} {rollout : DnsRollout} {started : List (StagedProfile × ℕ)}
  {error : Option String}

/-- What is known of a host, a staged generation and its start. -/
structure Rolling (env : PolicyEnv) (host : PolicyHost) (rollout : DnsRollout)
    (result : List (StagedProfile × ℕ) × Option String) : Prop where
  ok : host.Ok
  fresh : env.Fresh host
  dir : env.mkdirTemp = .ok rollout.dir
  rise : rollout.profiles.Pairwise fun p q => p.index < q.index ∧ p.port < q.port
  spec : StartSpec env rollout.profiles result

namespace Rolling

theorem new_dir (h : Rolling env host rollout (started, error)) : rollout.dir ∉ host.generations :=
  h.fresh.dir _ h.dir

theorem old_file (h : Rolling env host rollout (started, error)) {file : PidFile}
    (hfile : file ∈ host.pidFiles) : file.path.dir ≠ .generation rollout.dir :=
  fun hdir => h.new_dir (h.ok.pidDirs file hfile _ hdir)

theorem rise_started (h : Rolling env host rollout (started, error)) :
    started.Pairwise fun e f => e.1.index < f.1.index :=
  (List.pairwise_map (f := Prod.fst)).mp ((h.rise.sublist h.spec.sublist).imp And.left)

theorem nodup_ports (h : Rolling env host rollout (started, error)) :
    ((startedResolvers rollout.dir started).map Resolver.port).Nodup := by
  have hports : started.Pairwise fun e f => e.1.port < f.1.port :=
    (List.pairwise_map (f := Prod.fst)).mp ((h.rise.sublist h.spec.sublist).imp And.right)
  rw [startedResolvers, List.map_map]
  exact List.pairwise_map.mpr (hports.imp fun hlt => hlt.ne)

/-- Every path has one file after the start. -/
theorem nodup_paths (h : Rolling env host rollout (started, error)) :
    ((host.pidFiles ++ startedFiles rollout.dir started).map PidFile.path).Nodup := by
  rw [List.map_append, startedFiles, List.map_map]
  refine List.nodup_append.mpr ⟨h.ok.paths, ?_, ?_⟩
  · refine List.pairwise_map.mpr (h.rise_started.imp fun hlt heq => ?_)
    exact hlt.ne (pidPath_inj heq)
  · intro p hp q hq heq
    obtain ⟨file, hfile, rfl⟩ := List.mem_map.mp hp
    obtain ⟨entry, -, rfl⟩ := List.mem_map.mp hq
    exact h.old_file hfile (congrArg PolicyPath.dir heq)

theorem path_mem (h : Rolling env host rollout (started, error)) {entry : StagedProfile × ℕ}
    (hentry : entry ∈ started) : pidPath rollout.dir entry.1.index ∈
      rollout.profiles.map fun profile => pidPath rollout.dir profile.index :=
  List.mem_map_of_mem (h.spec.sublist.subset (List.mem_map_of_mem hentry))

theorem old_path (h : Rolling env host rollout (started, error)) {file : PidFile}
    (hfile : file ∈ host.pidFiles) : file.path ∉
      rollout.profiles.map fun profile => pidPath rollout.dir profile.index := by
  intro hpath
  obtain ⟨profile, -, hp⟩ := List.mem_map.mp hpath
  exact h.old_file hfile (congrArg PolicyPath.dir hp.symm)

/-- The clean-up reaches a new resolver if and only if its own `kill` is run. -/
theorem spared_iff (h : Rolling env host rollout (started, error)) {entry : StagedProfile × ℕ}
    (hentry : entry ∈ started) :
    (∀ file ∈ host.pidFiles ++ startedFiles rollout.dir started, (file.path ∈
        rollout.profiles.map fun profile => pidPath rollout.dir profile.index) →
          ¬ env.Stops file entry.2) ↔
      ¬ env.live (.kill (pidPath rollout.dir entry.1.index)) = true := by
  have hpid := h.spec.pid entry hentry
  constructor
  · intro hspared hlive
    exact hspared ⟨pidPath rollout.dir entry.1.index, entry.2⟩
      (List.mem_append_right _ (List.mem_map_of_mem hentry)) (h.path_mem hentry)
      ⟨(h.fresh.pid _ _ hpid).1, hlive, rfl⟩
  · rintro hdone file hfile hpath ⟨-, hlive, heq⟩
    rcases List.mem_append.mp hfile with hold | hnew
    · exact h.old_path hold hpath
    · obtain ⟨other, hother, rfl⟩ := List.mem_map.mp hnew
      have hother' := h.spec.pid other hother
      rw [show other.2 = entry.2 from heq] at hother'
      have hindex := h.fresh.pids _ _ _ hother' hpid
      exact hdone (hindex ▸ hlive)

/-- The clean-up reaches no old resolver. -/
theorem old_spared (h : Rolling env host rollout (started, error)) {r : Resolver}
    (hr : r ∈ host.running) : ∀ file ∈ host.pidFiles ++ startedFiles rollout.dir started,
      (file.path ∈ rollout.profiles.map fun profile => pidPath rollout.dir profile.index) →
        ¬ env.Stops file r.pid := by
  rintro file hfile hpath ⟨-, -, heq⟩
  rcases List.mem_append.mp hfile with hold | hnew
  · exact h.old_path hold hpath
  · obtain ⟨entry, hentry, rfl⟩ := List.mem_map.mp hnew
    exact (h.fresh.pid _ _ (h.spec.pid entry hentry)).2 r hr heq.symm

/-- A generation that is dropped: what stays of it are the resolvers whose `kill` is not run. -/
theorem dropRollout_eq (h : Rolling env host rollout (started, error)) :
    ((host.stage rollout).start rollout.dir started).dropRollout env rollout =
      { host with
        running := host.running ++ startedResolvers rollout.dir (started.filter fun entry =>
          ¬ env.live (.kill (pidPath rollout.dir entry.1.index)) = true) } := by
  have hrunning : (host.running ++ startedResolvers rollout.dir started).filter (fun r =>
        ∀ file ∈ host.pidFiles ++ startedFiles rollout.dir started, (file.path ∈
          rollout.profiles.map fun profile => pidPath rollout.dir profile.index) →
            ¬ env.Stops file r.pid) =
      host.running ++ startedResolvers rollout.dir (started.filter fun entry =>
        ¬ env.live (.kill (pidPath rollout.dir entry.1.index)) = true) := by
    rw [List.filter_append, startedResolvers, startedResolvers, List.filter_map]
    congr 1
    · exact List.filter_eq_self.mpr fun r hr => decide_eq_true (h.old_spared hr)
    · refine congrArg _ (List.filter_congr fun entry hentry => ?_)
      exact decide_eq_decide.mpr (h.spared_iff hentry)
  have hfiles : ((host.pidFiles ++ startedFiles rollout.dir started).filter fun file =>
        file.path ∉ rollout.profiles.map fun profile => pidPath rollout.dir profile.index).filter
          (fun file => file.path.dir ≠ .generation rollout.dir) = host.pidFiles := by
    rw [List.filter_filter]
    refine filter_append_left (fun file hfile => ?_) fun file hfile => ?_
    · rw [Bool.and_eq_true, decide_eq_true_eq, decide_eq_true_eq]
      exact ⟨h.old_file hfile, h.old_path hfile⟩
    · obtain ⟨entry, -, rfl⟩ := List.mem_map.mp hfile
      simp [pidPath]
  have hconfigs : (host.configs ++ rollout.configs).filter (fun config =>
      config.path.dir ≠ .generation rollout.dir) = host.configs := by
    refine filter_append_left (fun config hconfig => ?_) fun config hconfig => ?_
    · exact decide_eq_true fun hdir => h.new_dir (h.ok.configDirs config hconfig _ hdir)
    · obtain ⟨profile, -, rfl⟩ := List.mem_map.mp hconfig
      simp
  have hgenerations : (host.generations ++ [rollout.dir]).filter (fun name => name ≠ rollout.dir)
      = host.generations := by
    refine filter_append_left (fun name hname => ?_) (by simp)
    exact decide_eq_true fun heq => h.new_dir (heq ▸ hname)
  simp only [PolicyHost.dropRollout]
  rw [foldl_stopDNSPid env _ h.nodup_paths]
  simp only [PolicyHost.removeGeneration, PolicyHost.stage, PolicyHost.start, hfiles, hconfigs,
    hgenerations]
  exact congrArg (fun running => { host with running := running }) hrunning

/-- The host with the new generation beside the old ones. -/
def both (host : PolicyHost) (rollout : DnsRollout) (started : List (StagedProfile × ℕ))
    (table : List String) : PolicyHost :=
  { (host.stage rollout).start rollout.dir started with table }

theorem old_generation_iff (h : Rolling env host rollout (started, error)) {table : List String}
    {name : String} : name ∈ (both host rollout started table).oldGenerations rollout.dir ↔
      name ∈ host.generations := by
  rw [mem_oldGenerations]
  constructor
  · rintro ⟨hname, hne⟩
    exact (List.mem_append.mp hname).resolve_right fun h => hne (List.mem_singleton.mp h)
  · exact fun hname => ⟨List.mem_append_left _ hname, fun heq => h.new_dir (heq ▸ hname)⟩

/-- The clean-up of the old generations: what stays is the new one, and the resolvers that no
file of an old one reaches. -/
theorem stopOldDNSExcept_eq (h : Rolling env host rollout (started, error)) (table : List String) :
    (both host rollout started table).stopOldDNSExcept env rollout.dir =
      { table
        running := (host.running ++ startedResolvers rollout.dir started).filter fun r =>
          ∀ file ∈ host.pidFiles, ¬ env.Stops file r.pid
        pidFiles := startedFiles rollout.dir started
        configs := rollout.configs
        generations := [rollout.dir] } := by
  have hrunning : ((both host rollout started table).running.filter fun r =>
        ∀ file ∈ (both host rollout started table).pidFiles,
          file.path ∈ (both host rollout started table).oldPidPaths rollout.dir →
            ¬ env.Stops file r.pid) =
      (host.running ++ startedResolvers rollout.dir started).filter fun r =>
        ∀ file ∈ host.pidFiles, ¬ env.Stops file r.pid := by
    refine List.filter_congr fun r _ => decide_eq_decide.mpr ⟨?_, ?_⟩
    · intro hall file hfile
      have hmem : file ∈ (both host rollout started table).pidFiles := List.mem_append_left _ hfile
      exact hall file hmem ((mem_oldPidPaths hmem _).mpr (h.old_file hfile))
    · intro hall file hfile hpath
      rcases List.mem_append.mp hfile with hold | hnew
      · exact hall file hold
      · obtain ⟨entry, -, rfl⟩ := List.mem_map.mp hnew
        exact ((mem_oldPidPaths hfile _).mp hpath rfl).elim
  have hfiles : ((both host rollout started table).pidFiles.filter fun file =>
        file.path ∉ (both host rollout started table).oldPidPaths rollout.dir).filter
          (fun file => ∀ name ∈ (both host rollout started table).oldGenerations rollout.dir,
            file.path.dir ≠ .generation name) = startedFiles rollout.dir started := by
    rw [List.filter_filter]
    refine filter_append_right (fun file hfile => ?_) fun file hfile => ?_
    · have hmem : file ∈ (both host rollout started table).pidFiles := List.mem_append_left _ hfile
      have hpath := (mem_oldPidPaths hmem rollout.dir).mpr (h.old_file hfile)
      simp [hpath]
    · have hmem : file ∈ (both host rollout started table).pidFiles := List.mem_append_right _ hfile
      obtain ⟨entry, -, rfl⟩ := List.mem_map.mp hfile
      rw [Bool.and_eq_true, decide_eq_true_eq, decide_eq_true_eq, mem_oldPidPaths hmem]
      refine ⟨fun name hname heq => ?_, fun hne => hne rfl⟩
      cases heq
      exact h.new_dir (h.old_generation_iff.mp hname)
  have hconfigs : ((both host rollout started table).configs.filter fun config =>
        config.path.dir ≠ .root).filter (fun config =>
          ∀ name ∈ (both host rollout started table).oldGenerations rollout.dir,
            config.path.dir ≠ .generation name) = rollout.configs := by
    rw [List.filter_filter]
    refine filter_append_right (fun config hconfig => ?_) fun config hconfig => ?_
    · rw [Bool.and_eq_true, decide_eq_true_eq, decide_eq_true_eq]
      rintro ⟨hnone, hroot⟩
      cases hdir : config.path.dir with
      | root => exact hroot hdir
      | generation name =>
          exact hnone name (h.old_generation_iff.mpr (h.ok.configDirs config hconfig name hdir)) hdir
    · obtain ⟨profile, -, rfl⟩ := List.mem_map.mp hconfig
      rw [Bool.and_eq_true, decide_eq_true_eq, decide_eq_true_eq]
      refine ⟨fun name hname heq => ?_, PolicyDir.noConfusion⟩
      cases heq
      exact h.new_dir (h.old_generation_iff.mp hname)
  have hgenerations : ((both host rollout started table).generations.filter fun name =>
      name ∉ (both host rollout started table).oldGenerations rollout.dir) = [rollout.dir] := by
    refine filter_append_right (fun name hname => ?_) fun name hname => ?_
    · rw [decide_eq_true_eq, not_not]
      exact h.old_generation_iff.mpr hname
    · cases List.mem_singleton.mp hname
      exact decide_eq_true fun hname => h.new_dir (h.old_generation_iff.mp hname)
  simp only [PolicyHost.stopOldDNSExcept]
  rw [foldl_stopDNSPid env _ h.nodup_paths, foldl_removeGeneration]
  rw [← hrunning, ← hfiles, ← hconfigs, ← hgenerations]
  rfl

/-- The host is as before if and only if every new resolver's `kill` is run. -/
theorem dropRollout_eq_self_iff (h : Rolling env host rollout (started, error)) :
    ((host.stage rollout).start rollout.dir started).dropRollout env rollout = host ↔
      ∀ entry ∈ started, env.live (.kill (pidPath rollout.dir entry.1.index)) = true := by
  rw [h.dropRollout_eq]
  constructor
  · intro heq entry hentry
    by_contra hdone
    have hrunning := congrArg PolicyHost.running heq
    rw [List.append_right_eq_self, startedResolvers, List.map_eq_nil_iff] at hrunning
    exact List.filter_eq_nil_iff.mp hrunning entry hentry (decide_eq_true hdone)
  · intro hall
    have hnone : (started.filter fun entry =>
        ¬ env.live (.kill (pidPath rollout.dir entry.1.index)) = true) = [] :=
      List.filter_eq_nil_iff.mpr fun entry hentry => by simp [hall entry hentry]
    rw [hnone, startedResolvers, List.map_nil, List.append_nil]

/-- The new resolvers are the ones that are left if and only if the files of the old generations
reach every old resolver and no new one. -/
theorem running_eq_iff (h : Rolling env host rollout (started, error)) :
    ((host.running ++ startedResolvers rollout.dir started).filter fun r =>
        ∀ file ∈ host.pidFiles, ¬ env.Stops file r.pid) = startedResolvers rollout.dir started ↔
      (∀ r ∈ host.running, ∃ file ∈ host.pidFiles, env.Stops file r.pid) ∧
        ∀ entry ∈ started, ∀ file ∈ host.pidFiles, ¬ env.Stops file entry.2 := by
  constructor
  · intro heq
    constructor
    · intro r hr
      by_contra hnone
      push Not at hnone
      have hmem : r ∈ startedResolvers rollout.dir started := by
        rw [← heq]
        exact List.mem_filter.mpr ⟨List.mem_append_left _ hr, decide_eq_true hnone⟩
      obtain ⟨entry, hentry, rfl⟩ := List.mem_map.mp hmem
      exact (h.fresh.pid _ _ (h.spec.pid entry hentry)).2 _ hr rfl
    · intro entry hentry
      have hmem : (⟨entry.2, .generation rollout.dir, entry.1.port⟩ : Resolver) ∈
          startedResolvers rollout.dir started := List.mem_map_of_mem hentry
      rw [← heq] at hmem
      exact of_decide_eq_true (List.mem_filter.mp hmem).2
  · rintro ⟨hold, hnew⟩
    refine filter_append_right (fun r hr hkept => ?_) fun r hr => ?_
    · obtain ⟨file, hfile, hstops⟩ := hold r hr
      exact of_decide_eq_true hkept file hfile hstops
    · obtain ⟨entry, hentry, rfl⟩ := List.mem_map.mp hr
      exact decide_eq_true (hnew entry hentry)

variable (host rollout started) in
theorem finishRollout_failed (hfails : error ≠ none ∨ env.run .load env.load ≠ none)
    (document : String) :
    ∃ e, finishRollout env document rollout error
        ((host.stage rollout).start rollout.dir started) =
      (((host.stage rollout).start rollout.dir started).dropRollout env rollout, some e) := by
  cases error with
  | some error => exact ⟨error, rfl⟩
  | none =>
      obtain ⟨e, he⟩ := Option.ne_none_iff_exists'.mp (hfails.resolve_left fun h => h rfl)
      simp only [finishRollout, PolicyHost.replaceNftTable, he]
      exact ⟨_, rfl⟩

variable (host rollout started) in
theorem finishRollout_done (hload : env.run .load env.load = none) (document : String) :
    finishRollout env document rollout none ((host.stage rollout).start rollout.dir started) =
      ((both host rollout started
        (if env.live .list && !env.listFails && !host.table.isEmpty then [document]
          else host.table ++ [document])).stopOldDNSExcept env rollout.dir, none) := by
  simp only [finishRollout, PolicyHost.replaceNftTable, hload]
  rfl

/-- The document is the table if and only if there was none, or it was recognised. -/
theorem table_eq_iff (document : String) :
    (if env.live .list && !env.listFails && !host.table.isEmpty then [document]
        else host.table ++ [document]) = [document] ↔
      host.table = [] ∨ env.live .list = true ∧ env.listFails = false := by
  cases htable : host.table with
  | nil => simp
  | cons old rest =>
      cases env.live .list <;> cases env.listFails <;> simp

end Rolling

end Generation

end Clean

/-! ## One consistent generation -/

/-- The host has this generation and nothing else. -/
structure OnlyGeneration (document : String) (rollout : DnsRollout)
    (started : List (StagedProfile × ℕ)) (host : PolicyHost) : Prop where
  table : host.table = [document]
  generations : host.generations = [rollout.dir]
  configs : host.configs = rollout.configs
  resolvers : started.map Prod.fst = rollout.profiles
  running : host.running = startedResolvers rollout.dir started
  pidFiles : host.pidFiles = startedFiles rollout.dir started
  ports : (host.running.map Resolver.port).Nodup

section Outcome

variable (tools : PolicyTools) (env : PolicyEnv) (policies : List NetworkPolicy)
  (bridgeInterface : String) (host : PolicyHost)

/-- After an error the host is as it was, else there is the new generation and nothing else. -/
def RolledOut : Prop :=
  let result := applyPolicies tools env policies bridgeInterface host
  (result.2 ≠ none → result.1 = host) ∧
  (result.2 = none → ∃ rules rollout bridge,
    preparePolicies tools env policies bridgeInterface = .ok (rules, rollout, bridge) ∧
      OnlyGeneration (policyDocument tools rules rollout bridge) rollout
        (startDNSRollout env rollout.dir rollout.profiles).1 result.1)

/-- The clean-up reaches what it has to: the resolvers of a generation that fails; the old ones and
no new one, and the table, where all goes well. -/
def CleansUp : Prop :=
  ∀ rules rollout bridge,
    preparePolicies tools env policies bridgeInterface = .ok (rules, rollout, bridge) →
    let (started, error) := startDNSRollout env rollout.dir rollout.profiles
    if error = none ∧ env.run .load env.load = none then
      (host.table = [] ∨ env.live .list = true ∧ env.listFails = false) ∧
      (∀ r ∈ host.running, ∃ file ∈ host.pidFiles, env.Stops file r.pid) ∧
      ∀ entry ∈ started, ∀ file ∈ host.pidFiles, ¬ env.Stops file entry.2
    else ∀ entry ∈ started, env.live (.kill (pidPath rollout.dir entry.1.index)) = true

variable {host}

/-- A rollout is sound if and only if the context is not done before the clean-up. -/
theorem rollout_sound_iff (hok : host.Ok) (hfresh : env.Fresh host) :
    RolledOut tools env policies bridgeInterface host ↔
      CleansUp tools env policies bridgeInterface host := by
  cases hprepare : preparePolicies tools env policies bridgeInterface with
  | error error =>
      have happly : applyPolicies tools env policies bridgeInterface host = (host, some error) := by
        simp only [applyPolicies, hprepare]
      refine iff_of_true ⟨fun _ => by rw [happly], fun hnone => ?_⟩ fun _ _ _ heq => ?_
      · rw [happly] at hnone
        cases hnone
      · cases hprepare.symm.trans heq
  | ok staged =>
      obtain ⟨rules, rollout, bridge⟩ := staged
      obtain ⟨hdir, hrise⟩ := preparePolicies_rise hprepare
      have hspec := startDNSRollout_spec env rollout.dir rollout.profiles
      cases hstart : startDNSRollout env rollout.dir rollout.profiles with
      | mk started error =>
      rw [hstart] at hspec
      have h : Rolling env host rollout (started, error) := ⟨hok, hfresh, hdir, hrise, hspec⟩
      have happly : applyPolicies tools env policies bridgeInterface host =
          finishRollout env (policyDocument tools rules rollout bridge) rollout error
            ((host.stage rollout).start rollout.dir started) := by
        simp only [applyPolicies, hprepare, hstart]
      have hclean : CleansUp tools env policies bridgeInterface host ↔
          if error = none ∧ env.run .load env.load = none then
            (host.table = [] ∨ env.live .list = true ∧ env.listFails = false) ∧
            (∀ r ∈ host.running, ∃ file ∈ host.pidFiles, env.Stops file r.pid) ∧
            ∀ entry ∈ started, ∀ file ∈ host.pidFiles, ¬ env.Stops file entry.2
          else ∀ entry ∈ started, env.live (.kill (pidPath rollout.dir entry.1.index)) = true := by
        constructor
        · intro hall
          have := hall rules rollout bridge hprepare
          rwa [hstart] at this
        · intro hcond rules' rollout' bridge' heq
          cases hprepare.symm.trans heq
          rwa [hstart]
      rw [hclean]
      by_cases hends : error = none ∧ env.run .load env.load = none
      · obtain ⟨rfl, hload⟩ := hends
        rw [if_pos ⟨rfl, hload⟩, ← Rolling.table_eq_iff (policyDocument tools rules rollout bridge),
          ← h.running_eq_iff]
        rw [Rolling.finishRollout_done host rollout started hload, h.stopOldDNSExcept_eq] at happly
        constructor
        · rintro ⟨-, hdone⟩
          obtain ⟨rules', rollout', bridge', heq, honly⟩ := hdone (by rw [happly])
          cases hprepare.symm.trans heq
          rw [happly, hstart] at honly
          exact ⟨honly.table, honly.running⟩
        · rintro ⟨htable, hrunning⟩
          refine ⟨fun hne => ?_, fun _ => ⟨rules, rollout, bridge, hprepare, ?_⟩⟩
          · rw [happly] at hne
            exact (hne rfl).elim
          · rw [happly, hstart]
            refine ⟨htable, rfl, rfl, h.spec.all rfl, hrunning, rfl, ?_⟩
            rw [hrunning]
            exact h.nodup_ports
      · rw [if_neg hends, ← h.dropRollout_eq_self_iff]
        obtain ⟨e, hfailed⟩ := Rolling.finishRollout_failed host rollout started
          (not_and_or.mp hends) (policyDocument tools rules rollout bridge)
        rw [hfailed] at happly
        constructor
        · rintro ⟨hkept, -⟩
          rw [happly] at hkept
          exact hkept (Option.some_ne_none e)
        · intro hkept
          refine ⟨fun _ => by rw [happly]; exact hkept, fun hnone => ?_⟩
          rw [happly] at hnone
          cases hnone

end Outcome

/-! ## A context that is done too early -/

/-- The library on the inputs of the run. -/
def policyTools : PolicyTools where
  trimSpace s := s
  toLower s := s
  quote s := "\"" ++ s ++ "\""
  parseCIDR _ := none
  parseIP s := if s = "1.1.1.1" then some true else none

/-- Two instances under one DNS policy. -/
def lockedTargets : List NetworkPolicy :=
  [{ id := 1
     type := .dnsLock
     config := [("upstreams", .list [.text "1.1.1.1"])]
     targets := [⟨"vm-a", "00:16:3e:00:00:01"⟩, ⟨"vm-b", "00:16:3e:00:00:02"⟩] }]

/-- The host after an earlier bundle with one resolver. -/
def lockedHost : PolicyHost where
  table := ["old"]
  running := [⟨400, .generation "generation-1", 20000⟩]
  pidFiles := [⟨pidPath "generation-1" 0, 400⟩]
  generations := ["generation-1"]

/-- Both resolvers start. -/
def freshStarts : PolicyEnv where
  mkdirTemp := .ok "generation-2"
  start index := ⟨some (500 + index), none⟩

/-- The context is done while the second resolver starts. -/
def doneEarly : PolicyEnv where
  mkdirTemp := .ok "generation-2"
  start index := if index = 0 then ⟨some 500, none⟩ else ⟨none, some ("signal: killed", "")⟩
  live
    | .check _ | .start _ => true
    | .list | .load | .kill _ => false

theorem lockedHost_ok : lockedHost.Ok where
  paths := by decide
  pidDirs file hfile name hname := by
    cases List.mem_singleton.mp hfile
    cases hname
    exact List.mem_singleton.mpr rfl
  configDirs _ h := (List.not_mem_nil h).elim

theorem rollout_sound_replaced :
    RolledOut policyTools freshStarts lockedTargets "incus0" lockedHost ↔
      CleansUp policyTools freshStarts lockedTargets "incus0" lockedHost := by
  refine rollout_sound_iff policyTools freshStarts lockedTargets "incus0" lockedHost_ok
    ⟨fun name h => ?_, fun i pid h => ?_, fun i j pid hi hj => ?_⟩
  · cases h
    decide
  · cases h
    refine ⟨by omega, fun r hr => ?_⟩
    cases List.mem_singleton.mp hr
    change 400 ≠ 500 + i
    omega
  · cases hi
    have := Option.some.inj hj
    omega

/-- The first resolver of the failed generation runs on, and its pid file is gone. -/
theorem resolver_left_running :
    ¬ RolledOut policyTools doneEarly lockedTargets "incus0" lockedHost ∧
    (applyPolicies policyTools doneEarly lockedTargets "incus0" lockedHost).1.running =
      lockedHost.running ++ [⟨500, .generation "generation-2", 10000⟩] ∧
    (applyPolicies policyTools doneEarly lockedTargets "incus0" lockedHost).1.pidFiles =
      lockedHost.pidFiles := by
  have hrun : applyPolicies policyTools doneEarly lockedTargets "incus0" lockedHost =
      ({ lockedHost with
          running := lockedHost.running ++ [⟨500, .generation "generation-2", 10000⟩] },
        some "start dnsmasq profile: signal: killed: ") := by decide
  rw [hrun]
  refine ⟨fun hsound => ?_, rfl, rfl⟩
  have hkept := hsound.1
  rw [hrun] at hkept
  exact absurd (congrArg (List.length ∘ PolicyHost.running) (hkept (by simp))) (by decide)

end Incudal
