/-
# `InterfaceCounters` — the panel and the agent read the counters of an instance

The panel and the agent both take the traffic of an instance from its network
state: the interfaces that the panel gave it, known by their name or by their
derived address, or else those that look like external ones.  The selection is
one (`Selection.collect`); what differs is the runtime that compares names and
addresses.  `trim` and `TrimSpace` do not remove the same characters, and
`toLowerCase` takes `İ` to two characters where `ToLower` takes it to `i`.

So there are states of which the two report different totals
(`dotted_name_counted_once`).  Which ones they are, whatever the counters and
the order of the interfaces, is `counters_agree_iff`.
-/
import Incudal.PaymentCallbacks
import Incudal.TrafficCounters
import Incudal.Lib.Binary64
import Incudal.Lib.Selection
import Incudal.Lib.Trim
import Mathlib

namespace Incudal

/-! ## The two runtimes -/

/-- The lower case of the characters beyond ASCII other than `İ` and the sign of the kelvin: none of
them becomes one of ASCII.  The panel's runtime may look at what stands around a character. -/
structure CaseMapping where
  panel : List Char → Char → List Char → List Char
  agent : Char → Char
  panel_ne_nil : ∀ before c after, panel before c after ≠ []
  panel_beyond : ∀ before c after, ∀ d ∈ panel before c after, 128 ≤ d.toNat
  agent_beyond : ∀ c, 128 ≤ (agent c).toNat

/-- The white space of `strings.TrimSpace`. -/
def goSpace (c : Char) : Bool :=
  c == ' ' || ('\t' ≤ c && c ≤ '\r') || c == '\u0085' || c == '\u00a0' || c == '\u1680' ||
    ('\u2000' ≤ c && c ≤ '\u200a') || c == '\u2028' || c == '\u2029' || c == '\u202f' ||
    c == '\u205f' || c == '\u3000'

section Case

variable (cm : CaseMapping)

/-- `toLowerCase` of one character. -/
def panelLowerChar (before : List Char) (c : Char) (after : List Char) : List Char :=
  if c.toNat < 128 then [c.toLower]
  else if c = '\u0130' then ['i', '\u0307']
  else if c = '\u212a' then ['k']
  else cm.panel before c after

def panelLower (before : List Char) : List Char → List Char
  | [] => []
  | c :: after => panelLowerChar cm before c after ++ panelLower (before ++ [c]) after

/-- `unicode.ToLower`. -/
def agentLowerChar (c : Char) : Char :=
  if c.toNat < 128 then c.toLower
  else if c = '\u0130' then 'i'
  else if c = '\u212a' then 'k'
  else cm.agent c

def agentLower (s : List Char) : List Char := s.map (agentLowerChar cm)

end Case

/-! ## The state of an instance -/

/-- A counter as it stands in the state: nothing, a number, or a number in quotes. -/
inductive IncusCounter
  | missing
  | number (n : ℕ)
  | quoted (n : ℕ)
deriving DecidableEq, Repr

def IncusCounter.value : IncusCounter → ℕ
  | .missing => 0
  | .number n | .quoted n => n

structure IncusCounters where
  bytesReceived : IncusCounter
  bytesSent : IncusCounter
deriving DecidableEq, Repr

structure NetworkInterface where
  name : String
  hwaddr : Option String
  counters : Option IncusCounters
deriving DecidableEq, Repr

/-! ## The derived addresses -/

section Addresses

variable (sha256 : String → Fin 32 → UInt8)

/-- The bytes of an address. -/
def nicBytes (seed nicLabel : String) : List UInt8 :=
  let hash := sha256 ("incudal-vm-nic:" ++ seed ++ ":" ++ nicLabel)
  [0x02, hash 0, hash 1, hash 2, hash 3, hash 4]

/-- `formatMac` of the panel. -/
def formatMac (bytes : List UInt8) : List Char :=
  [':'].intercalate (bytes.map fun byte => (Nat.toDigits 16 byte.toNat).leftpad 2 '0')

/-- `hex.EncodeToString`. -/
def hexEncode (bytes : List UInt8) : List Char :=
  bytes.flatMap fun byte => [Nat.digitChar (byte.toNat / 16), Nat.digitChar (byte.toNat % 16)]

/-- `generateVmNicMac` of the agent: the six pairs of digits. -/
def agentVmNicMac (seed nicLabel : String) : List Char :=
  let encoded := hexEncode (nicBytes sha256 seed nicLabel)
  [':'].intercalate ([0, 2, 4, 6, 8, 10].map fun i => (encoded.drop i).take 2)

def panelVmNicMac (seed nicLabel : String) : List Char :=
  formatMac (nicBytes sha256 seed nicLabel)

end Addresses

/-- `/^eth[0-9]+$/`, or `/^en(?:o|p|s|x)[a-z0-9]+$/`. -/
def externalName : List Char → Bool
  | 'e' :: 't' :: 'h' :: rest => !rest.isEmpty && rest.all Char.isDigit
  | 'e' :: 'n' :: kind :: rest =>
      (kind == 'o' || kind == 'p' || kind == 's' || kind == 'x') && !rest.isEmpty &&
        rest.all fun c => c.isLower || c.isDigit
  | _ => false

/-! ## The panel -/

/-- A counter as the panel's runtime has it: a number is a double. -/
inductive JsCounter
  | undefined
  | number (x : ℚ)
  | text (s : List Char)

def IncusCounter.toJs : IncusCounter → JsCounter
  | .missing => .undefined
  | .number n => .number (Binary64.toDouble n : ℕ)
  | .quoted n => .text (Nat.toDigits 10 n)

def isNumeral (s : List Char) : Bool := !s.isEmpty && s.all Char.isDigit

def counterToBigInt : JsCounter → ℕ
  | .text s => if isNumeral s then Nat.ofDigitChars 10 s 0 else 0
  | .number x => if x ≤ 0 then 0 else ⌊x⌋.toNat
  | .undefined => 0

section Panel

variable (cm : CaseMapping) (sha256 : String → Fin 32 → UInt8) (instanceName : String)

/-- `getBillableVmMacs`. -/
def getBillableVmMacs : List (List Char) :=
  [panelLower cm [] (panelVmNicMac sha256 instanceName "eth0"),
    panelLower cm [] (panelVmNicMac sha256 instanceName "eth1")]

/-- `normalizeMac`. -/
def normalizeMac : Option String → Option (List Char)
  | some value =>
      let trimmed := Trim.trimBy jsSpace value.toList
      if trimmed.isEmpty then none else some (panelLower cm [] trimmed)
  | none => none

/-- `isBillableNetworkInterface` of the panel. -/
def panelBillable (i : NetworkInterface) : Bool :=
  if i.name = "lo" then false
  else if i.name = "eth0" ∨ i.name = "eth1" then true
  else
    match normalizeMac cm i.hwaddr with
    | some hwaddr => hwaddr ∈ getBillableVmMacs cm sha256 instanceName
    | none => false

/-- `isLikelyExternalGuestInterface` of the panel. -/
def panelExternal (i : NetworkInterface) : Bool := externalName (panelLower cm [] i.name.toList)

/-- `addCounters`. -/
def addCounters (totals : Counters) (i : NetworkInterface) : Counters :=
  match i.counters with
  | none => totals
  | some counters =>
      ⟨totals.rxBytes + counterToBigInt counters.bytesReceived.toJs,
        totals.txBytes + counterToBigInt counters.bytesSent.toJs⟩

def getTrafficCountersFromState (network : List NetworkInterface) : Counters :=
  Selection.collect (panelBillable cm sha256 instanceName) (panelExternal cm) addCounters ⟨0, 0⟩
    network

end Panel

/-! ## The agent -/

/-- The text of a counter in the decoded state. -/
def IncusCounter.toGo : IncusCounter → List Char
  | .missing => []
  | .number n | .quoted n => Nat.toDigits 10 n

/-- `jsonNumberToUint64`. -/
def jsonNumberToUint64 (value : List Char) : UInt64 :=
  let raw := Trim.trimBy goSpace value
  if isNumeral raw ∧ Nat.ofDigitChars 10 raw 0 < 2 ^ 64 then
    UInt64.ofNat (Nat.ofDigitChars 10 raw 0)
  else 0

structure GoCounters where
  rx : UInt64
  tx : UInt64
deriving DecidableEq, Repr

section Agent

variable (cm : CaseMapping) (sha256 : String → Fin 32 → UInt8) (instanceName : String)

def generateBillableVmMacs : List (List Char) :=
  [agentVmNicMac sha256 instanceName "eth0", agentVmNicMac sha256 instanceName "eth1"]

/-- `isBillableNetworkInterface` of the agent: an address that is not there is empty. -/
def agentBillable (i : NetworkInterface) : Bool :=
  if i.name = "lo" then false
  else if i.name = "eth0" ∨ i.name = "eth1" then true
  else
    let hwaddr := agentLower cm (Trim.trimBy goSpace (i.hwaddr.getD "").toList)
    if hwaddr.isEmpty then false else hwaddr ∈ generateBillableVmMacs sha256 instanceName

/-- `isLikelyExternalGuestInterface` of the agent. -/
def agentExternal (i : NetworkInterface) : Bool := externalName (agentLower cm i.name.toList)

/-- `addNetworkCounters`. -/
def addNetworkCounters (totals : GoCounters) (i : NetworkInterface) : GoCounters :=
  let counters := i.counters.getD ⟨.missing, .missing⟩
  ⟨totals.rx + jsonNumberToUint64 counters.bytesReceived.toGo,
    totals.tx + jsonNumberToUint64 counters.bytesSent.toGo⟩

def getTrafficCountersFromIncusState (network : List NetworkInterface) : GoCounters :=
  Selection.collect (agentBillable cm sha256 instanceName) (agentExternal cm) addNetworkCounters
    ⟨0, 0⟩ network

end Agent

/-! ## One address for both -/

section Mac

variable {cm : CaseMapping} {sha256 : String → Fin 32 → UInt8} {instanceName : String}

/-- A character of a derived address: no runtime changes it, and none trims it. -/
def MacChar (c : Char) : Prop :=
  c.toNat < 128 ∧ c.toLower = c ∧ c ≠ 'i' ∧ jsSpace c = false ∧ goSpace c = false

instance (c : Char) : Decidable (MacChar c) := inferInstanceAs (Decidable (_ ∧ _))

theorem macChar_digitChar : ∀ n < 16, MacChar (Nat.digitChar n) := by decide

theorem macChar_colon : MacChar ':' := by decide

theorem leftpad_toDigits (byte : UInt8) :
    (Nat.toDigits 16 byte.toNat).leftpad 2 '0' =
      [Nat.digitChar (byte.toNat / 16), Nat.digitChar (byte.toNat % 16)] := by
  have hlt : byte.toNat < 256 := byte.toNat_lt
  by_cases h : byte.toNat < 16
  · rw [Nat.toDigits_of_lt_base h, Nat.div_eq_of_lt h, Nat.mod_eq_of_lt h]
    rfl
  · rw [Nat.toDigits_of_base_le (by omega) (by omega), Nat.toDigits_of_lt_base (by omega)]
    rfl

/-- Both sides write an address alike. -/
theorem agentVmNicMac_eq (seed nicLabel : String) :
    agentVmNicMac sha256 seed nicLabel = panelVmNicMac sha256 seed nicLabel := by
  simp only [panelVmNicMac, formatMac, leftpad_toDigits]
  rfl

theorem macChar_of_mem_formatMac (bytes : List UInt8) :
    ∀ c ∈ formatMac bytes, MacChar c := by
  have hpair : ∀ byte : UInt8, ∀ c ∈ (Nat.toDigits 16 byte.toNat).leftpad 2 '0', MacChar c := by
    intro byte c hc
    have hlt : byte.toNat < 256 := byte.toNat_lt
    rw [leftpad_toDigits, List.mem_pair] at hc
    rcases hc with rfl | rfl
    · exact macChar_digitChar _ (by omega)
    · exact macChar_digitChar _ (by omega)
  induction bytes with
  | nil => exact fun c hc => (List.not_mem_nil hc).elim
  | cons byte bytes ih =>
      cases bytes with
      | nil =>
          intro c hc
          exact hpair byte c (by simpa [formatMac, List.intercalate] using hc)
      | cons next bytes =>
          intro c hc
          have hsplit : formatMac (byte :: next :: bytes) =
              (Nat.toDigits 16 byte.toNat).leftpad 2 '0' ++ ':' :: formatMac (next :: bytes) := rfl
          rw [hsplit, List.mem_append, List.mem_cons] at hc
          rcases hc with hc | rfl | hc
          · exact hpair byte c hc
          · exact macChar_colon
          · exact ih c hc

theorem panelLower_of_ascii {before s : List Char} (h : ∀ c ∈ s, MacChar c) :
    panelLower cm before s = s := by
  induction s generalizing before with
  | nil => rfl
  | cons c s ih =>
      obtain ⟨hascii, hlower, -⟩ := h c List.mem_cons_self
      rw [panelLower, ih fun d hd => h d (List.mem_cons_of_mem _ hd), panelLowerChar, if_pos hascii,
        hlower]
      rfl

/-- The addresses are the same on both sides, and the panel's lower case leaves them alone. -/
theorem getBillableVmMacs_eq :
    getBillableVmMacs cm sha256 instanceName = generateBillableVmMacs sha256 instanceName := by
  have hlower : ∀ nicLabel, panelLower cm [] (panelVmNicMac sha256 instanceName nicLabel) =
      panelVmNicMac sha256 instanceName nicLabel :=
    fun _ => panelLower_of_ascii (macChar_of_mem_formatMac _)
  rw [getBillableVmMacs, generateBillableVmMacs, agentVmNicMac_eq, agentVmNicMac_eq, hlower, hlower]

theorem macChar_of_mem {mac : List Char} (hmac : mac ∈ generateBillableVmMacs sha256 instanceName) :
    mac ≠ [] ∧ ∀ c ∈ mac, MacChar c := by
  rw [generateBillableVmMacs, agentVmNicMac_eq, agentVmNicMac_eq, List.mem_pair] at hmac
  rcases hmac with rfl | rfl
  · exact ⟨List.cons_ne_nil _ _, macChar_of_mem_formatMac _⟩
  · exact ⟨List.cons_ne_nil _ _, macChar_of_mem_formatMac _⟩

end Mac

/-! ## The lower case of both -/

section Lower

variable {cm : CaseMapping} {before s mac : List Char} {c : Char}

/-- A character that both runtimes take to the same one. -/
def PlainChar (c : Char) : Prop := c.toNat < 128 ∨ c = '\u212a'

theorem panelLowerChar_of_plain {after : List Char} (h : PlainChar c) :
    panelLowerChar cm before c after = [agentLowerChar cm c] := by
  rcases h with h | rfl
  · rw [panelLowerChar, agentLowerChar, if_pos h, if_pos h]
  · rfl

theorem panelLower_of_plain (h : ∀ c ∈ s, PlainChar c) : panelLower cm before s = agentLower cm s := by
  induction s generalizing before with
  | nil => rfl
  | cons c s ih =>
      rw [panelLower, panelLowerChar_of_plain (h c List.mem_cons_self),
        ih fun d hd => h d (List.mem_cons_of_mem _ hd)]
      rfl

variable (cm before) in
theorem panelLowerChar_beyond (after : List Char) (h : ¬ PlainChar c) :
    ∃ d ∈ panelLowerChar cm before c after, 128 ≤ d.toNat := by
  obtain ⟨hascii, hkelvin⟩ := not_or.mp h
  rw [panelLowerChar, if_neg hascii]
  split
  · exact ⟨'\u0307', by simp, by decide⟩
  · obtain ⟨d, hd⟩ := List.exists_mem_of_ne_nil _ (cm.panel_ne_nil before c after)
    exact ⟨d, hd, cm.panel_beyond _ _ _ d hd⟩

variable (cm before) in
/-- Any other character leaves one beyond ASCII in the panel's lower case. -/
theorem panelLower_beyond (hc : c ∈ s) (h : ¬ PlainChar c) :
    ∃ d ∈ panelLower cm before s, 128 ≤ d.toNat := by
  induction s generalizing before with
  | nil => exact (List.not_mem_nil hc).elim
  | cons b s ih =>
      rw [panelLower]
      rcases List.mem_cons.mp hc with rfl | hc
      · obtain ⟨d, hd, hbeyond⟩ := panelLowerChar_beyond cm before s h
        exact ⟨d, List.mem_append_left _ hd, hbeyond⟩
      · obtain ⟨d, hd, hbeyond⟩ := ih (before ++ [b]) hc
        exact ⟨d, List.mem_append_right _ hd, hbeyond⟩

theorem agentLowerChar_beyond (h : ¬ PlainChar c) (hdot : c ≠ '\u0130') :
    128 ≤ (agentLowerChar cm c).toNat := by
  obtain ⟨hascii, hkelvin⟩ := not_or.mp h
  rw [agentLowerChar, if_neg hascii, if_neg hdot, if_neg hkelvin]
  exact cm.agent_beyond c

/-- What the agent takes to ASCII is plain, or the `İ`. -/
theorem plain_or_of_agentLower (h : ∀ d ∈ agentLower cm s, d.toNat < 128) (hc : c ∈ s) :
    PlainChar c ∨ c = '\u0130' := by
  by_contra hother
  obtain ⟨hplain, hdot⟩ := not_or.mp hother
  exact absurd (h _ (List.mem_map_of_mem hc)) (not_lt.mpr (agentLowerChar_beyond hplain hdot))

theorem plain_of_panelLower (h : ∀ d ∈ panelLower cm before s, d.toNat < 128) (hc : c ∈ s) :
    PlainChar c := by
  by_contra hother
  obtain ⟨d, hd, hbeyond⟩ := panelLower_beyond cm before hc hother
  exact absurd (h d hd) (not_lt.mpr hbeyond)

theorem agentLower_dot (hc : '\u0130' ∈ s) : 'i' ∈ agentLower cm s := List.mem_map_of_mem hc

/-- A text is an address in lower case for the panel exactly if it is for the agent. -/
theorem panelLower_eq_iff (hmac : ∀ c ∈ mac, MacChar c) :
    panelLower cm before s = mac ↔ agentLower cm s = mac := by
  constructor
  · intro h
    have hplain : ∀ c ∈ s, PlainChar c :=
      fun c hc => plain_of_panelLower (fun d hd => (hmac d (h ▸ hd)).1) hc
    rw [← panelLower_of_plain hplain, h]
  · intro h
    have hplain : ∀ c ∈ s, PlainChar c := by
      intro c hc
      refine (plain_or_of_agentLower (fun d hd => (hmac d (h ▸ hd)).1) hc).resolve_right ?_
      rintro rfl
      exact (hmac 'i' (h ▸ agentLower_dot hc)).2.2.1 rfl
    rw [panelLower_of_plain hplain, h]

theorem ascii_of_isDigit (h : c.isDigit = true) : c.toNat < 128 := by
  simp only [Char.isDigit, Bool.and_eq_true, decide_eq_true_eq] at h
  exact lt_of_le_of_lt (UInt32.le_iff_toNat_le.mp h.2) (by decide)

theorem ascii_of_isLower (h : c.isLower = true) : c.toNat < 128 := by
  simp only [Char.isLower, Bool.and_eq_true, decide_eq_true_eq] at h
  exact lt_of_le_of_lt (UInt32.le_iff_toNat_le.mp h.2) (by decide)

theorem ascii_of_externalName (h : externalName s = true) : ∀ c ∈ s, c.toNat < 128 := by
  unfold externalName at h
  split at h
  · rename_i rest
    rw [Bool.and_eq_true, List.all_eq_true] at h
    simp only [List.forall_mem_cons]
    exact ⟨by decide, by decide, by decide, fun c hc => ascii_of_isDigit (h.2 c hc)⟩
  · rename_i kind rest
    rw [Bool.and_eq_true, Bool.and_eq_true, List.all_eq_true] at h
    have hkind : kind.toNat < 128 := by
      have hcases := h.1.1
      simp only [Bool.or_eq_true, beq_iff_eq] at hcases
      rcases hcases with ((rfl | rfl) | rfl) | rfl <;> decide
    simp only [List.forall_mem_cons]
    refine ⟨by decide, by decide, hkind, fun c hc => ?_⟩
    rcases Bool.or_eq_true_iff.mp (h.2 c hc) with hlower | hdigit
    · exact ascii_of_isLower hlower
    · exact ascii_of_isDigit hdigit
  · cases h

/-- A name looks external to the panel exactly if it does to the agent and has no `İ`. -/
theorem externalName_panelLower :
    externalName (panelLower cm before s) = true ↔
      externalName (agentLower cm s) = true ∧ '\u0130' ∉ s := by
  constructor
  · intro h
    have hplain : ∀ c ∈ s, PlainChar c := fun c hc => plain_of_panelLower (ascii_of_externalName h) hc
    rw [panelLower_of_plain hplain] at h
    exact ⟨h, fun hdot => absurd (hplain _ hdot) (by unfold PlainChar; decide)⟩
  · rintro ⟨h, hdot⟩
    have hplain : ∀ c ∈ s, PlainChar c := fun c hc =>
      (plain_or_of_agentLower (ascii_of_externalName h) hc).resolve_right fun heq => hdot (heq ▸ hc)
    rwa [panelLower_of_plain hplain]

end Lower

/-! ## What the conditions of the two come to -/

/-- The white space of both. -/
def anySpace (c : Char) : Bool := jsSpace c || goSpace c

theorem anySpace_eq_js (c : Char) : anySpace c = (jsSpace c || c == '\u0085') := by
  rw [Bool.eq_iff_iff]
  simp only [anySpace, jsSpace, goSpace, Bool.or_eq_true]
  grind

theorem anySpace_eq_go (c : Char) : anySpace c = (goSpace c || c == '\ufeff') := by
  rw [Bool.eq_iff_iff]
  simp only [anySpace, jsSpace, goSpace, Bool.or_eq_true]
  grind

section Conditions

variable (cm : CaseMapping) (sha256 : String → Fin 32 → UInt8) (instanceName : String)

/-- The characters of the address; none if there is no address. -/
def NetworkInterface.address (i : NetworkInterface) : List Char := (i.hwaddr.getD "").toList

/-- The address is a derived one up to white space and case. -/
def hasDerivedAddress (i : NetworkInterface) : Bool :=
  agentLower cm (Trim.trimBy anySpace i.address) ∈ generateBillableVmMacs sha256 instanceName

/-- An interface of the instance, if the address has no `blank`. -/
def billableBut (blank : Char) (i : NetworkInterface) : Bool :=
  i.name ≠ "lo" ∧ (i.name = "eth0" ∨ i.name = "eth1" ∨
    hasDerivedAddress cm sha256 instanceName i = true ∧ blank ∉ i.address)

variable {cm sha256 instanceName}

theorem not_macChar_of_ascii_space : ∀ n < 128, anySpace (Char.ofNat n) = true →
    ¬ MacChar (Char.ofNat n).toLower := by
  decide

theorem not_macChar_of_anySpace {c : Char} (h : anySpace c = true) :
    ¬ MacChar (agentLowerChar cm c) := by
  intro hmac
  by_cases hascii : c.toNat < 128
  · rw [agentLowerChar, if_pos hascii] at hmac
    rw [← Char.ofNat_toNat c] at h hmac
    exact not_macChar_of_ascii_space _ hascii h hmac
  · have hdot : c ≠ '\u0130' := by
      rintro rfl
      exact absurd h (by decide)
    have hkelvin : c ≠ '\u212a' := by
      rintro rfl
      exact absurd h (by decide)
    exact absurd hmac.1 (not_lt.mpr (agentLowerChar_beyond (not_or.mpr ⟨hascii, hkelvin⟩) hdot))

/-- What one runtime trims to a derived address, the other does unless there is a blank of its
own. -/
theorem trim_mem_macs_iff {p : Char → Bool} {blank : Char} (hp : ∀ c, anySpace c = (p c || c == blank))
    (hblank : p blank = false) (s : List Char) :
    agentLower cm (Trim.trimBy p s) ∈ generateBillableVmMacs sha256 instanceName ↔
      agentLower cm (Trim.trimBy anySpace s) ∈ generateBillableVmMacs sha256 instanceName ∧
        blank ∉ s := by
  have hcore : ∀ t, agentLower cm t ∈ generateBillableVmMacs sha256 instanceName →
      t ≠ [] ∧ ∀ c ∈ t, ¬ anySpace c = true := by
    intro t ht
    obtain ⟨hne, hmac⟩ := macChar_of_mem ht
    refine ⟨fun hnil => hne (by rw [hnil]; rfl), fun c hc hspace => ?_⟩
    exact not_macChar_of_anySpace hspace (hmac _ (List.mem_map_of_mem hc))
  have hle : ∀ c, p c = true → anySpace c = true := fun c hc => by rw [hp, hc, Bool.true_or]
  have hno : (∀ c ∈ s, anySpace c = true → p c = true) ↔ blank ∉ s := by
    constructor
    · intro h hmem
      have := h blank hmem (by simp [hp])
      rw [hblank] at this
      cases this
    · intro h c hc hspace
      rw [hp, Bool.or_eq_true, beq_iff_eq] at hspace
      exact hspace.resolve_right fun heq => h (heq ▸ hc)
  rw [← hno]
  constructor
  · intro h
    obtain ⟨hne, hclean⟩ := hcore _ h
    obtain ⟨htrim, hrun⟩ := (Trim.trimBy_eq_iff_of_le hle hne hclean).mp rfl
    exact ⟨htrim ▸ h, hrun⟩
  · rintro ⟨h, hrun⟩
    obtain ⟨hne, hclean⟩ := hcore _ h
    rw [(Trim.trimBy_eq_iff_of_le hle hne hclean).mpr ⟨rfl, hrun⟩]
    exact h

theorem panelLower_mem_iff (before : List Char) {t : List Char} :
    panelLower cm before t ∈ getBillableVmMacs cm sha256 instanceName ↔
      agentLower cm t ∈ generateBillableVmMacs sha256 instanceName := by
  rw [getBillableVmMacs_eq]
  constructor
  · intro h
    rwa [(panelLower_eq_iff (macChar_of_mem h).2).mp rfl]
  · intro h
    rwa [(panelLower_eq_iff (macChar_of_mem h).2).mpr rfl]

theorem nil_not_mem_macs : [] ∉ generateBillableVmMacs sha256 instanceName :=
  fun h => (macChar_of_mem h).1 rfl

/-- The comparison of addresses in the panel. -/
theorem normalizeMac_mem_iff (i : NetworkInterface) :
    (∃ hwaddr, normalizeMac cm i.hwaddr = some hwaddr ∧
        hwaddr ∈ getBillableVmMacs cm sha256 instanceName) ↔
      hasDerivedAddress cm sha256 instanceName i = true ∧ '\u0085' ∉ i.address := by
  rw [hasDerivedAddress, decide_eq_true_eq, ← trim_mem_macs_iff anySpace_eq_js (by decide)]
  cases hhw : i.hwaddr with
  | none =>
      have hnil : agentLower cm (Trim.trimBy jsSpace i.address) = [] := by
        rw [NetworkInterface.address, hhw]
        rfl
      rw [hnil]
      exact iff_of_false (fun h => by obtain ⟨_, h, -⟩ := h; cases h) nil_not_mem_macs
  | some value =>
      have haddress : i.address = value.toList := by rw [NetworkInterface.address, hhw]; rfl
      rw [haddress]
      simp only [normalizeMac]
      split
      · rename_i hempty
        rw [List.isEmpty_iff.mp hempty]
        exact iff_of_false (fun h => by obtain ⟨_, h, -⟩ := h; cases h) nil_not_mem_macs
      · rw [← panelLower_mem_iff []]
        exact ⟨fun h => by obtain ⟨_, h, hmem⟩ := h; cases h; exact hmem, fun h => ⟨_, rfl, h⟩⟩

theorem panelBillable_eq (i : NetworkInterface) :
    panelBillable cm sha256 instanceName i = billableBut cm sha256 instanceName '\u0085' i := by
  rw [Bool.eq_iff_iff, billableBut, decide_eq_true_eq, ← normalizeMac_mem_iff]
  simp only [panelBillable]
  split
  · rename_i hlo
    exact iff_of_false (by simp) fun h => h.1 hlo
  rename_i hlo
  split
  · rename_i heth
    exact iff_of_true rfl ⟨hlo, heth.imp_right .inl⟩
  rename_i heth
  obtain ⟨heth0, heth1⟩ := not_or.mp heth
  simp only [ne_eq, hlo, not_false_eq_true, heth0, heth1, false_or, true_and]
  split
  · rename_i hwaddr hhw
    simp [hhw]
  · rename_i hhw
    simp [hhw]

theorem agentBillable_eq (i : NetworkInterface) :
    agentBillable cm sha256 instanceName i = billableBut cm sha256 instanceName '\ufeff' i := by
  rw [Bool.eq_iff_iff, billableBut, decide_eq_true_eq, hasDerivedAddress, decide_eq_true_eq,
    ← trim_mem_macs_iff anySpace_eq_go (by decide)]
  simp only [agentBillable]
  split
  · rename_i hlo
    exact iff_of_false (by simp) fun h => h.1 hlo
  rename_i hlo
  split
  · rename_i heth
    exact iff_of_true rfl ⟨hlo, heth.imp_right .inl⟩
  rename_i heth
  obtain ⟨heth0, heth1⟩ := not_or.mp heth
  simp only [ne_eq, hlo, not_false_eq_true, heth0, heth1, false_or, true_and]
  split
  · rename_i hempty
    have hnil : agentLower cm (Trim.trimBy goSpace i.address) = [] := List.isEmpty_iff.mp hempty
    rw [hnil]
    exact iff_of_false (by simp) nil_not_mem_macs
  · exact decide_eq_true_iff

end Conditions

/-! ## The sums -/

section Sums

theorem isNumeral_toDigits (n : ℕ) : isNumeral (Nat.toDigits 10 n) = true := by
  rw [isNumeral, Bool.and_eq_true, List.all_eq_true]
  refine ⟨by simp, fun c hc => ?_⟩
  exact Nat.isDigit_of_mem_toDigits (by decide) (by decide) hc

theorem counterToBigInt_toJs {counter : IncusCounter} (h : counter.value < 2 ^ 53) :
    counterToBigInt counter.toJs = counter.value := by
  cases counter with
  | missing => rfl
  | number n =>
      have hdouble : Binary64.toDouble n = n := Binary64.toDouble_of_lt h
      simp only [IncusCounter.toJs, counterToBigInt, hdouble, IncusCounter.value]
      split
      · rename_i hle
        exact (Nat.le_zero.mp (by exact_mod_cast hle)).symm
      · simp
  | quoted n =>
      simp only [IncusCounter.toJs, counterToBigInt, isNumeral_toDigits, if_true,
        Nat.ofDigitChars_ten_toDigits, IncusCounter.value]

theorem goSpace_of_ascii_isDigit : ∀ n < 128, (Char.ofNat n).isDigit = true →
    ¬ goSpace (Char.ofNat n) = true := by
  decide

theorem goSpace_of_isDigit {c : Char} (h : c.isDigit = true) : ¬ goSpace c = true := by
  have hascii := ascii_of_isDigit h
  rw [← Char.ofNat_toNat c] at h ⊢
  exact goSpace_of_ascii_isDigit _ hascii h

theorem jsonNumberToUint64_toGo {counter : IncusCounter} (h : counter.value < 2 ^ 64) :
    (jsonNumberToUint64 counter.toGo).toNat = counter.value := by
  have hnumber : ∀ n < 2 ^ 64, (jsonNumberToUint64 (Nat.toDigits 10 n)).toNat = n := by
    intro n hn
    have htrim : Trim.trimBy goSpace (Nat.toDigits 10 n) = Nat.toDigits 10 n := by
      have hnumeral := isNumeral_toDigits n
      rw [isNumeral, Bool.and_eq_true, List.all_eq_true] at hnumeral
      refine (Trim.trimBy_eq_iff (by simp) fun c hc => ?_).mpr
        ⟨[], [], by simp, by simp, by simp⟩
      exact goSpace_of_isDigit (hnumeral.2 c hc)
    simp only [jsonNumberToUint64, htrim, isNumeral_toDigits, Nat.ofDigitChars_ten_toDigits, hn,
      and_self, if_true]
    exact UInt64.toNat_ofNat_of_lt' hn
  cases counter with
  | missing => rfl
  | number n => exact hnumber n h
  | quoted n => exact hnumber n h

def NetworkInterface.rx (i : NetworkInterface) : ℕ :=
  match i.counters with
  | none => 0
  | some counters => counters.bytesReceived.value

def NetworkInterface.tx (i : NetworkInterface) : ℕ :=
  match i.counters with
  | none => 0
  | some counters => counters.bytesSent.value

/-- Counters that a double holds, and totals that a word holds. -/
structure CountersFit (network : List NetworkInterface) : Prop where
  each : ∀ i ∈ network, i.rx < 2 ^ 53 ∧ i.tx < 2 ^ 53
  rx : (network.map NetworkInterface.rx).sum < 2 ^ 64
  tx : (network.map NetworkInterface.tx).sum < 2 ^ 64

theorem foldl_addCounters {l : List NetworkInterface}
    (h : ∀ i ∈ l, i.rx < 2 ^ 53 ∧ i.tx < 2 ^ 53) (totals : Counters) :
    l.foldl addCounters totals =
      ⟨totals.rxBytes + (l.map NetworkInterface.rx).sum,
        totals.txBytes + (l.map NetworkInterface.tx).sum⟩ := by
  induction l generalizing totals with
  | nil => rfl
  | cons i l ih =>
      obtain ⟨hrx, htx⟩ := h i List.mem_cons_self
      have hadd : addCounters totals i = ⟨totals.rxBytes + i.rx, totals.txBytes + i.tx⟩ := by
        simp only [addCounters]
        cases hc : i.counters with
        | none => simp only [NetworkInterface.rx, NetworkInterface.tx, hc, Nat.add_zero]
        | some counters =>
            simp only [NetworkInterface.rx, NetworkInterface.tx, hc] at hrx htx ⊢
            rw [counterToBigInt_toJs hrx, counterToBigInt_toJs htx]
      rw [List.foldl_cons, ih fun j hj => h j (List.mem_cons_of_mem _ hj), hadd]
      simp only [List.map_cons, List.sum_cons, Nat.add_assoc]

theorem foldl_addNetworkCounters {l : List NetworkInterface}
    (h : ∀ i ∈ l, i.rx < 2 ^ 53 ∧ i.tx < 2 ^ 53) (totals : GoCounters) :
    (l.foldl addNetworkCounters totals).rx.toNat =
        (totals.rx.toNat + (l.map NetworkInterface.rx).sum) % 2 ^ 64 ∧
      (l.foldl addNetworkCounters totals).tx.toNat =
        (totals.tx.toNat + (l.map NetworkInterface.tx).sum) % 2 ^ 64 := by
  induction l generalizing totals with
  | nil =>
      simp only [List.foldl_nil, List.map_nil, List.sum_nil, Nat.add_zero]
      exact ⟨(Nat.mod_eq_of_lt totals.rx.toNat_lt).symm, (Nat.mod_eq_of_lt totals.tx.toNat_lt).symm⟩
  | cons i l ih =>
      obtain ⟨hrx, htx⟩ := h i List.mem_cons_self
      have hle : (2 : ℕ) ^ 53 ≤ 2 ^ 64 := by decide
      have hadd : (addNetworkCounters totals i).rx.toNat = (totals.rx.toNat + i.rx) % 2 ^ 64 ∧
          (addNetworkCounters totals i).tx.toNat = (totals.tx.toNat + i.tx) % 2 ^ 64 := by
        simp only [addNetworkCounters, UInt64.toNat_add]
        cases hc : i.counters with
        | none =>
            simp only [NetworkInterface.rx, NetworkInterface.tx, hc]
            exact ⟨rfl, rfl⟩
        | some counters =>
            simp only [NetworkInterface.rx, NetworkInterface.tx, hc] at hrx htx ⊢
            rw [Option.getD_some, jsonNumberToUint64_toGo (hrx.trans_le hle),
              jsonNumberToUint64_toGo (htx.trans_le hle)]
            exact ⟨rfl, rfl⟩
      obtain ⟨ihrx, ihtx⟩ := ih (fun j hj => h j (List.mem_cons_of_mem _ hj))
        (addNetworkCounters totals i)
      rw [List.foldl_cons, ihrx, ihtx, hadd.1, hadd.2]
      simp only [List.map_cons, List.sum_cons, Nat.mod_add_mod, Nat.add_assoc, and_self]

end Sums

/-! ## Agreement -/

section Agreement

variable (cm : CaseMapping) (sha256 : String → Fin 32 → UInt8) (instanceName : String)

/-- The name looks external to the agent, and has no `İ`. -/
def externalButDotted (i : NetworkInterface) : Bool :=
  agentExternal cm i ∧ '\u0130' ∉ i.name.toList

/-- What the panel counts, and what the agent counts. -/
def panelCounted (network : List NetworkInterface) : List NetworkInterface :=
  Selection.selected (billableBut cm sha256 instanceName '\u0085') (externalButDotted cm) network

def agentCounted (network : List NetworkInterface) : List NetworkInterface :=
  Selection.selected (billableBut cm sha256 instanceName '\ufeff') (agentExternal cm) network

/-- No interface is counted by one of the two alone. -/
def CountedAlike (network : List NetworkInterface) : Prop :=
  ∀ i ∈ network, i ∈ panelCounted cm sha256 instanceName network ↔
    i ∈ agentCounted cm sha256 instanceName network

/-- The interfaces with other counters. -/
def recount (counters : String → Option IncusCounters) (i : NetworkInterface) : NetworkInterface :=
  { i with counters := counters i.name }

/-- Whatever the counters are, and in whatever order the two meet the interfaces, the totals are the
same. -/
def CountersAgree (network : List NetworkInterface) : Prop :=
  ∀ counters : String → Option IncusCounters, CountersFit (network.map (recount counters)) →
    ∀ panelOrder agentOrder : List NetworkInterface,
      panelOrder.Perm (network.map (recount counters)) →
      agentOrder.Perm (network.map (recount counters)) →
      (getTrafficCountersFromState cm sha256 instanceName panelOrder).rxBytes =
          (getTrafficCountersFromIncusState cm sha256 instanceName agentOrder).rx.toNat ∧
        (getTrafficCountersFromState cm sha256 instanceName panelOrder).txBytes =
          (getTrafficCountersFromIncusState cm sha256 instanceName agentOrder).tx.toNat

variable {cm sha256 instanceName} {network : List NetworkInterface}

theorem panelExternal_eq (i : NetworkInterface) : panelExternal cm i = externalButDotted cm i := by
  rw [Bool.eq_iff_iff, panelExternal, externalName_panelLower, externalButDotted, decide_eq_true_eq,
    agentExternal]

theorem panelCounted_recount (counters : String → Option IncusCounters) :
    panelCounted cm sha256 instanceName (network.map (recount counters)) =
      (panelCounted cm sha256 instanceName network).map (recount counters) :=
  Selection.selected_map _ _

theorem agentCounted_recount (counters : String → Option IncusCounters) :
    agentCounted cm sha256 instanceName (network.map (recount counters)) =
      (agentCounted cm sha256 instanceName network).map (recount counters) :=
  Selection.selected_map _ _

/-- The totals of the panel are the sums over what it counts. -/
theorem panel_totals (hfit : CountersFit network) {order : List NetworkInterface}
    (horder : order.Perm network) :
    getTrafficCountersFromState cm sha256 instanceName order =
      ⟨((panelCounted cm sha256 instanceName network).map NetworkInterface.rx).sum,
        ((panelCounted cm sha256 instanceName network).map NetworkInterface.tx).sum⟩ := by
  have hsel : Selection.selected (panelBillable cm sha256 instanceName) (panelExternal cm) order =
      panelCounted cm sha256 instanceName order :=
    Selection.selected_congr (fun i _ => panelBillable_eq i) fun i _ => panelExternal_eq i
  have hperm : (panelCounted cm sha256 instanceName order).Perm
      (panelCounted cm sha256 instanceName network) := Selection.selected_perm horder
  have heach : ∀ i ∈ panelCounted cm sha256 instanceName order, i.rx < 2 ^ 53 ∧ i.tx < 2 ^ 53 :=
    fun i hi => hfit.each i (horder.mem_iff.mp (Selection.mem_selected.mp hi).1)
  rw [getTrafficCountersFromState, Selection.collect_eq, hsel, foldl_addCounters heach,
    (hperm.map _).sum_eq, (hperm.map _).sum_eq, Nat.zero_add, Nat.zero_add]

theorem sum_selected_le {strict loose : NetworkInterface → Bool} (f : NetworkInterface → ℕ) :
    ((Selection.selected strict loose network).map f).sum ≤ (network.map f).sum := by
  have hsub : (Selection.selected strict loose network).Sublist network := by
    simp only [Selection.selected]
    split
    · exact List.filter_sublist
    · exact List.filter_sublist
  exact (hsub.map f).sum_le_sum fun _ _ => Nat.zero_le _

/-- The totals of the agent are the sums over what it counts, which a word holds. -/
theorem agent_totals (hfit : CountersFit network) {order : List NetworkInterface}
    (horder : order.Perm network) :
    (getTrafficCountersFromIncusState cm sha256 instanceName order).rx.toNat =
        ((agentCounted cm sha256 instanceName network).map NetworkInterface.rx).sum ∧
      (getTrafficCountersFromIncusState cm sha256 instanceName order).tx.toNat =
        ((agentCounted cm sha256 instanceName network).map NetworkInterface.tx).sum := by
  have hsel : Selection.selected (agentBillable cm sha256 instanceName) (agentExternal cm) order =
      agentCounted cm sha256 instanceName order :=
    Selection.selected_congr (fun i _ => agentBillable_eq i) fun _ _ => rfl
  have hperm : (agentCounted cm sha256 instanceName order).Perm
      (agentCounted cm sha256 instanceName network) := Selection.selected_perm horder
  have heach : ∀ i ∈ agentCounted cm sha256 instanceName order, i.rx < 2 ^ 53 ∧ i.tx < 2 ^ 53 :=
    fun i hi => hfit.each i (horder.mem_iff.mp (Selection.mem_selected.mp hi).1)
  obtain ⟨hrx, htx⟩ := foldl_addNetworkCounters heach ⟨0, 0⟩
  rw [getTrafficCountersFromIncusState, Selection.collect_eq, hsel, hrx, htx,
    (hperm.map _).sum_eq, (hperm.map _).sum_eq]
  constructor
  · exact (congrArg (· % 2 ^ 64) (Nat.zero_add _)).trans
      (Nat.mod_eq_of_lt ((sum_selected_le _).trans_lt hfit.rx))
  · exact (congrArg (· % 2 ^ 64) (Nat.zero_add _)).trans
      (Nat.mod_eq_of_lt ((sum_selected_le _).trans_lt hfit.tx))

/-- One byte received on one interface. -/
def oneByte (i : NetworkInterface) (name : String) : Option IncusCounters :=
  if name = i.name then some ⟨.number 1, .missing⟩ else none

theorem oneByte_rx (i j : NetworkInterface) :
    (recount (oneByte i) j).rx = if j.name = i.name then 1 else 0 := by
  simp only [recount, oneByte, NetworkInterface.rx]
  by_cases h : j.name = i.name
  · simp only [h, if_true, IncusCounter.value]
  · simp only [h, if_false]

theorem oneByte_tx (i j : NetworkInterface) : (recount (oneByte i) j).tx = 0 := by
  simp only [recount, oneByte, NetworkInterface.tx]
  by_cases h : j.name = i.name
  · simp only [h, if_true, IncusCounter.value]
  · simp only [h, if_false]

/-- The byte is in the sum over some of the interfaces exactly if its interface is one of them. -/
theorem oneByte_sum (hnames : (network.map NetworkInterface.name).Nodup) {i : NetworkInterface}
    (hi : i ∈ network) (part : List NetworkInterface) (hpart : part.Nodup)
    (hsub : ∀ j ∈ part, j ∈ network) :
    ((part.map (recount (oneByte i))).map NetworkInterface.rx).sum = if i ∈ part then 1 else 0 := by
  rw [← Selection.sum_indicator hpart i, List.map_map]
  refine congrArg _ (List.map_congr_left fun j hj => ?_)
  have hname : j.name = i.name ↔ j = i :=
    ⟨List.inj_on_of_nodup_map hnames (hsub j hj) hi, congrArg _⟩
  simp only [Function.comp_apply, oneByte_rx, hname]

theorem countersFit_oneByte (hnames : (network.map NetworkInterface.name).Nodup)
    {i : NetworkInterface} (hi : i ∈ network) :
    CountersFit (network.map (recount (oneByte i))) where
  each j hj := by
    obtain ⟨j, -, rfl⟩ := List.mem_map.mp hj
    rw [oneByte_rx, oneByte_tx]
    split <;> decide
  rx := by
    rw [oneByte_sum hnames hi network (List.Nodup.of_map _ hnames) fun _ h => h, if_pos hi]
    decide
  tx := by
    have hzero : ∀ j ∈ network, (NetworkInterface.tx ∘ recount (oneByte i)) j = 0 :=
      fun j _ => oneByte_tx i j
    rw [List.map_map, List.map_congr_left hzero]
    simp

/-- The panel and the agent compute the same totals for all counters and in all orders if and only
if no interface is counted by one of them alone. -/
theorem counters_agree_iff (hnames : (network.map NetworkInterface.name).Nodup) :
    CountersAgree cm sha256 instanceName network ↔ CountedAlike cm sha256 instanceName network := by
  have hnodup : network.Nodup := List.Nodup.of_map _ hnames
  constructor
  · intro hagree i hi
    have hfit := countersFit_oneByte hnames hi
    have htotals := (hagree (oneByte i) hfit _ _ (.refl _) (.refl _)).1
    rw [panel_totals hfit (.refl _), (agent_totals hfit (.refl _)).1, panelCounted_recount,
      agentCounted_recount] at htotals
    have hpanel := oneByte_sum hnames hi (panelCounted cm sha256 instanceName network)
      (Selection.nodup_selected hnodup) fun _ h => (Selection.mem_selected.mp h).1
    have hagent := oneByte_sum hnames hi (agentCounted cm sha256 instanceName network)
      (Selection.nodup_selected hnodup) fun _ h => (Selection.mem_selected.mp h).1
    rw [hpanel, hagent] at htotals
    constructor
    · intro hp
      by_contra ha
      rw [if_pos hp, if_neg ha] at htotals
      cases htotals
    · intro ha
      by_contra hp
      rw [if_neg hp, if_pos ha] at htotals
      cases htotals
  · intro halike counters hfit panelOrder agentOrder hpanel hagent
    have hperm : (panelCounted cm sha256 instanceName (network.map (recount counters))).Perm
        (agentCounted cm sha256 instanceName (network.map (recount counters))) := by
      rw [panelCounted_recount, agentCounted_recount]
      exact (Selection.selected_perm_of_mem hnodup halike).map _
    rw [panel_totals hfit hpanel, (agent_totals hfit hagent).1, (agent_totals hfit hagent).2]
    exact ⟨(hperm.map _).sum_eq, (hperm.map _).sum_eq⟩

end Agreement

/-! ## Two states -/

/-- The lower case of characters that have none of their own. -/
def caseless : CaseMapping where
  panel _ c _ := [if 128 ≤ c.toNat then c else '\u0080']
  agent c := if 128 ≤ c.toNat then c else '\u0080'
  panel_ne_nil _ _ _ := List.cons_ne_nil _ _
  panel_beyond _ c _ d hd := by
    cases List.mem_singleton.mp hd
    split
    · assumption
    · decide
  agent_beyond c := by
    split
    · assumption
    · decide

/-- The digests of the two labels of `vm-1`. -/
def digests (seed : String) (i : Fin 32) : UInt8 :=
  if seed = "incudal-vm-nic:vm-1:eth0" then
    [160, 104, 186, 195, 125, 140, 195, 42, 82, 10, 191, 128, 173, 50, 1, 185, 91, 14, 191, 233, 96,
      203, 56, 129, 187, 205, 134, 192, 110, 111, 109, 172].getD i 0
  else if seed = "incudal-vm-nic:vm-1:eth1" then
    [252, 231, 145, 79, 56, 18, 156, 24, 94, 74, 100, 110, 31, 13, 124, 142, 61, 39, 5, 23, 79, 66,
      180, 91, 76, 28, 58, 93, 251, 24, 222, 113].getD i 0
  else 0

/-- A guest that has renamed its only interface. -/
def dottedNetwork : List NetworkInterface :=
  [⟨"lo", none, some ⟨.number 500, .number 500⟩⟩,
    ⟨"enp\u01305", some "52:54:00:12:34:56", some ⟨.number 1000, .number 2000⟩⟩]

/-- The agent counts the interface, and the panel does not. -/
theorem dotted_name_counted_once :
    CountersFit dottedNetwork ∧
    getTrafficCountersFromState caseless digests "vm-1" dottedNetwork = ⟨0, 0⟩ ∧
    getTrafficCountersFromIncusState caseless digests "vm-1" dottedNetwork = ⟨1000, 2000⟩ :=
  ⟨⟨by decide, by decide, by decide⟩, by decide, by decide⟩

/-- A guest with its own interface and a bridge. -/
def bridgedNetwork : List NetworkInterface :=
  [⟨"docker0", some "02:42:ac:11:00:02", none⟩, ⟨"enp5s0", some "02:A0:68:BA:C3:7D", none⟩]

theorem counters_agree_bridged :
    CountersAgree caseless digests "vm-1" bridgedNetwork ↔
      CountedAlike caseless digests "vm-1" bridgedNetwork :=
  counters_agree_iff (by decide)

end Incudal
