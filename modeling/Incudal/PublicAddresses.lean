/-
# `PublicAddresses` — which addresses the panel connects to

An address is judged by its text: a mapped address is recognised by the prefix
`::ffff:` and judged as the quad it holds, any other is read and compared with the
blocks that are not routed.  Hosts and outbound targets are resolved first, and
every answer is judged.

One value has many texts.  Where a mapped address is written otherwise, with its
zeros spelled out for example, the quad is not seen and the address passes
(`loopback_passes`).  For every other text the verdict is that of the value
(`public_by_value_iff`).
-/
import Incudal.Lib.IpText
import Incudal.Lib.Trim
import Incudal.PaymentCallbacks
import Incudal.Store
import Mathlib.Data.List.TakeWhile

namespace Incudal

open IpText

/-! ## Texts and values -/

inductive AddressValue
  | v4 (n : ℕ)
  | v6 (n : ℕ)
deriving DecidableEq, Repr

/-- `text.toLowerCase().split('%')[0]` -/
def unzoned (text : List Char) : List Char := (text.map Char.toLower).takeWhile (· ≠ '%')

/-- The value of a text without a zone. -/
def readAddress (value : List Char) : Option AddressValue :=
  match readV4 value with
  | some n => some (.v4 n)
  | none => (readV6 value).map .v6

section Verdict

/- Which zones the runtime accepts. -/
variable (validZone : List Char → Bool)

/-- `isIP` -/
def isIP (text : List Char) : ℕ :=
  if '%' ∈ text then
    let zone := (text.dropWhile (· ≠ '%')).tail
    if validZone zone && (readV6 (unzoned text)).isSome then 6 else 0
  else
    match readAddress (unzoned text) with
    | some (.v4 _) => 4
    | some (.v6 _) => 6
    | none => 0

structure Cidr where
  address : String
  length : ℕ
deriving DecidableEq, Repr

def blockedIpv4Cidrs : List Cidr :=
  [⟨"0.0.0.0", 8⟩, ⟨"10.0.0.0", 8⟩, ⟨"100.64.0.0", 10⟩, ⟨"127.0.0.0", 8⟩, ⟨"169.254.0.0", 16⟩,
    ⟨"172.16.0.0", 12⟩, ⟨"192.0.0.0", 24⟩, ⟨"192.0.2.0", 24⟩, ⟨"192.168.0.0", 16⟩,
    ⟨"198.18.0.0", 15⟩, ⟨"198.51.100.0", 24⟩, ⟨"203.0.113.0", 24⟩, ⟨"224.0.0.0", 4⟩,
    ⟨"240.0.0.0", 4⟩]

def blockedIpv6Cidrs : List Cidr :=
  [⟨"::", 96⟩, ⟨"::1", 128⟩, ⟨"64:ff9b::", 96⟩, ⟨"64:ff9b:1::", 48⟩, ⟨"100::", 64⟩,
    ⟨"2001::", 23⟩, ⟨"2001:db8::", 32⟩, ⟨"fc00::", 7⟩, ⟨"fe80::", 10⟩, ⟨"ff00::", 8⟩]

/-- `isInSubnet`, for addresses of `w` bits. -/
def Cidr.contains (w : ℕ) (read : List Char → Option ℕ) (cidr : Cidr) (n : ℕ) : Bool :=
  (read cidr.address.toList).any fun start =>
    n / 2 ^ (w - cidr.length) == start / 2 ^ (w - cidr.length)

def listed4 (n : ℕ) : Bool := blockedIpv4Cidrs.any fun cidr => cidr.contains 32 readV4 n

def listed6 (n : ℕ) : Bool := blockedIpv6Cidrs.any fun cidr => cidr.contains 128 readV6 n

/-- `/^\d{1,3}(?:\.\d{1,3}){3}$/` -/
def isDotted (t : List Char) : Bool :=
  let parts := t.splitOn '.'
  parts.length == 4 && parts.all fun p => 1 ≤ p.length && p.length ≤ 3 && p.all Char.isDigit

/-- The quad of two groups. -/
def quadOf (high low : ℕ) : List Char := writeV4 [high / 256, high % 256, low / 256, low % 256]

/-- What stands after `::ffff:`. -/
def afterMappedPrefix (value : List Char) : Option (List Char) :=
  if "::ffff:".toList.isPrefixOf value then some (value.drop 7) else none

def normalizedMappedIpv4 (address : List Char) : Option (List Char) :=
  match afterMappedPrefix (unzoned address) with
  | none => none
  | some tail =>
      if isDotted tail && isIP validZone tail == 4 then some tail
      else
        match tail.splitOn ':' with
        | [high, low] =>
            if isGroup high && isGroup low then
              some (quadOf ((GroupedText.readNumeral 16 high).getD 0)
                ((GroupedText.readNumeral 16 low).getD 0))
            else none
        | _ => none

/-- The blocks, for a text that is no mapped address. -/
def isOutsideBlocks (value : List Char) : Bool :=
  if isIP validZone value = 4 then (readV4 value).any fun n => !listed4 n
  else if isIP validZone value = 6 then (readV6 value).any fun n => !listed6 n
  else false

/-- A mapped address is judged as its quad, in which no other is mapped
(`isPublicHostAddress_mapped`). -/
def isPublicHostAddress (address : List Char) : Bool :=
  let value := unzoned address
  match normalizedMappedIpv4 validZone value with
  | some mapped => isOutsideBlocks validZone mapped
  | none => isOutsideBlocks validZone value

end Verdict

/-! ## Resolution -/

structure ParsedUrl where
  protocol : String
  username : String
  password : String
  hostname : List Char
deriving DecidableEq, Repr

structure ResolvedIncusTarget where
  url : String
  servername : Option (List Char)
  address : List Char
deriving DecidableEq, Repr

/-- `hostname.replace(/^\[|\]$/g, '')` -/
def stripBrackets (hostname : List Char) : List Char :=
  let rest := if hostname.head? = some '[' then hostname.tail else hostname
  if rest.getLast? = some ']' then rest.dropLast else rest

section Resolution

variable (validZone : List Char → Bool)

/-- The first address of the fourth version, or the first. -/
def chosenAddress (addresses : List (List Char)) : List Char :=
  ((addresses.find? fun candidate => isIP validZone candidate = 4).or addresses.head?).getD []

/-- The url is parsed, and written with another host, by the platform. -/
def resolveIncusTarget (parse : String → Option ParsedUrl)
    (withHost : String → List Char → String) (input : String) (allowPrivateNetwork : Bool)
    (resolver : List Char → List (List Char)) : Except String ResolvedIncusTarget :=
  match parse input with
  | none => .error "Host URL is invalid"
  | some url =>
      if url.protocol ≠ "https:" ∨ url.username ≠ "" ∨ url.password ≠ "" then
        .error "Incus host URL must use HTTPS without credentials"
      else
        let hostname := stripBrackets url.hostname
        let literal := isIP validZone hostname ≠ 0
        let addresses := if literal then [hostname] else (resolver hostname).eraseDups
        if addresses = [] then .error "Host URL did not resolve to an address"
        else if !allowPrivateNetwork &&
            addresses.any (fun address => !isPublicHostAddress validZone address) then
          .error "Ordinary host creators must use a publicly routable host URL"
        else
          let address := chosenAddress validZone addresses
          if isIP validZone address = 0 then .error "Host URL resolved to an invalid address"
          else
            let host := if isIP validZone address = 6 then
              '[' :: (address.takeWhile (· ≠ '%') ++ [']']) else address
            .ok { url := withHost input host,
                  servername := if literal then none else some hostname, address := address }

structure AddressRecord where
  address : List Char
  family : ℕ
deriving DecidableEq, Repr

/-- `hostname.trim().toLowerCase().replace(/\.$/, '')` -/
def normalizedHost (hostname : List Char) : List Char :=
  let host := (Trim.trimBy jsSpace hostname).map Char.toLower
  if host.getLast? = some '.' then host.dropLast else host

/-- The lookup is the platform's; its error is a code. -/
def resolvePublicAddresses (dnsLookup : List Char → Except String (List (List Char)))
    (hostname : List Char) : Except String (List AddressRecord) :=
  let host := normalizedHost hostname
  if host = [] then .error "Hostname cannot be empty"
  else if host = "localhost".toList ∨ ".localhost".toList <:+ host ∨ ".local".toList <:+ host ∨
      ".internal".toList <:+ host then
    .error "Private or local targets are not allowed"
  else if isIP validZone host ≠ 0 then
    if !isPublicHostAddress validZone host then
      .error "Private or reserved IP targets are not allowed"
    else .ok [⟨host, isIP validZone host⟩]
  else if '.' ∉ host then .error "Private or local hostnames are not allowed"
  else
    match dnsLookup host with
    | .error code => .error ("Unable to resolve hostname (" ++ code ++ ")")
    | .ok records =>
        if records = [] then .error "Unable to resolve hostname"
        else if records.any fun address => !isPublicHostAddress validZone address then
          .error "Targets resolving to private or reserved IPs are not allowed"
        else .ok (records.map fun address => ⟨address, isIP validZone address⟩)

/-- `createSafeDnsLookup`: the address that the connection is made to. -/
def safeDnsLookup (dnsLookup : List Char → Except String (List (List Char)))
    (hostname : List Char) (requestedFamily : Option ℕ) : Except String AddressRecord :=
  match resolvePublicAddresses validZone dnsLookup hostname with
  | .error error => .error error
  | .ok records =>
      let candidates := if requestedFamily = some 4 ∨ requestedFamily = some 6 then
        records.filter fun item => some item.family = requestedFamily else records
      match candidates.head?.or records.head? with
      | some selected => .ok selected
      | none => .error "Unable to resolve hostname"

end Resolution

/-! ## The verdict of a value -/

/-- A mapped address holds one of the fourth version in its last two groups. -/
def IsMapped (n : ℕ) : Prop := n / 2 ^ 32 = 0xffff

instance : DecidablePred IsMapped := fun n => inferInstanceAs (Decidable (n / 2 ^ 32 = 0xffff))

/-- In a listed block. -/
def AddressValue.Listed : AddressValue → Prop
  | .v4 n => listed4 n = true
  | .v6 n => listed6 n = true

/-- Public: outside the blocks, a mapped address when the one that it holds is. -/
def AddressValue.Public : AddressValue → Prop
  | .v4 n => listed4 n = false
  | .v6 n => if IsMapped n then listed4 (n % 2 ^ 32) = false else listed6 n = false

/-- A mapped address that is not public is written with the prefix. -/
def ShowsMapped (text : List Char) : Prop :=
  ∀ n, readAddress (unzoned text) = some (.v6 n) → IsMapped n → listed4 (n % 2 ^ 32) = true →
    "::ffff:".toList <+: unzoned text

/-! ## Texts in lower case -/

section Plain

variable {t v : List Char} {c : Char}

theorem toLower_toLower (c : Char) : c.toLower.toLower = c.toLower := by
  unfold Char.toLower
  split
  · -- thirty-two above an upper-case letter there is none
    rename_i h
    rw [dif_neg]
    intro h'
    have hle : c.val.toNat ≤ 90 := h.2
    have hge : 65 ≤ c.val.toNat := h.1
    have hsum : (c.val + 32).toNat ≤ 90 := h'.2
    have hval : (c.val + 32).toNat = c.val.toNat + 32 := by
      rw [UInt32.toNat_add]
      exact Nat.mod_eq_of_lt (show c.val.toNat + 32 < 2 ^ 32 by omega)
    omega
  · rfl

/-- In lower case and without a zone. -/
def PlainText (t : List Char) : Prop := ∀ c ∈ t, c.toLower = c ∧ c ≠ '%'

theorem plainText_unzoned (t : List Char) : PlainText (unzoned t) := by
  intro c hc
  obtain ⟨d, -, rfl⟩ := List.mem_map.mp ((List.takeWhile_sublist _).subset hc)
  exact ⟨toLower_toLower d, by simpa using List.mem_takeWhile_imp hc⟩

theorem unzoned_of_plain (h : PlainText v) : unzoned v = v := by
  have hmap : v.map Char.toLower = v :=
    (List.map_congr_left fun c hc => (h c hc).1).trans (List.map_id v)
  rw [unzoned, hmap]
  exact List.takeWhile_eq_self_iff.mpr fun c hc => by simpa using (h c hc).2

end Plain

section Verdict

variable {validZone : List Char → Bool} {t v tail m : List Char} {n x : ℕ} {addr : AddressValue}

theorem readV4_of_readAddress (h : readAddress v = some (.v4 n)) : readV4 v = some n := by
  unfold readAddress at h
  split at h
  · rename_i k hk
    rw [hk, AddressValue.v4.inj (Option.some.inj h)]
  · obtain ⟨y, -, he⟩ := Option.map_eq_some_iff.mp h
    cases he

theorem readV6_of_readAddress (h : readAddress v = some (.v6 x)) : readV6 v = some x := by
  unfold readAddress at h
  split at h
  · cases h
  · obtain ⟨y, hy, he⟩ := Option.map_eq_some_iff.mp h
    rw [hy, AddressValue.v6.inj he]

theorem isIP_of_plain (h : PlainText v) : isIP validZone v =
    match readAddress v with
    | some (.v4 _) => 4
    | some (.v6 _) => 6
    | none => 0 := by
  have hzone : '%' ∉ v := fun hmem => (h _ hmem).2 rfl
  rw [isIP, if_neg hzone, unzoned_of_plain h]

theorem isIP_eq_four (h : PlainText v) : isIP validZone v = 4 ↔ ∃ n, readV4 v = some n := by
  rw [isIP_of_plain h, readAddress]
  cases readV4 v with
  | some n => simp
  | none => cases readV6 v <;> simp

theorem afterMappedPrefix_eq_some : afterMappedPrefix v = some tail ↔ v = "::ffff:".toList ++ tail := by
  rw [afterMappedPrefix]
  constructor
  · intro h
    split at h
    · rename_i hpre
      obtain ⟨rest, rfl⟩ := List.isPrefixOf_iff_prefix.mp hpre
      obtain rfl := Option.some.inj h
      rfl
    · cases h
  · rintro rfl
    rw [if_pos (List.isPrefixOf_iff_prefix.mpr (List.prefix_append _ _))]
    rfl

theorem isDotted_of_readV4 (h : readV4 t = some n) : isDotted t = true := by
  obtain ⟨-, hlen, hparts⟩ := readV4_parts h
  simp only [isDotted, Bool.and_eq_true, beq_iff_eq, List.all_eq_true, decide_eq_true_eq]
  refine ⟨hlen, fun p hp => ?_⟩
  obtain ⟨k, hk⟩ := hparts p hp
  obtain ⟨hpos, hle, hdigits⟩ := readOctet_digits hk
  exact ⟨⟨hpos, hle⟩, hdigits⟩

theorem toLower_of_isDigit {c : Char} (h : c.isDigit = true) : c.toLower = c := by
  simp only [Char.isDigit, Bool.and_eq_true, decide_eq_true_eq] at h
  unfold Char.toLower
  rw [dif_neg]
  intro hupper
  have hge : 65 ≤ c.val.toNat := hupper.1
  have hle : c.val.toNat ≤ 57 := h.2
  omega

theorem plainText_quadOf (high low : ℕ) : PlainText (quadOf high low) := by
  intro c hc
  rcases GroupedText.of_mem_intercalate hc with rfl | ⟨l, hl, hcl⟩
  · decide
  · obtain ⟨k, -, rfl⟩ := List.mem_map.mp hl
    have hdigit : c.isDigit = true := Nat.isDigit_of_mem_toDigits (by decide) (by decide) hcl
    refine ⟨toLower_of_isDigit hdigit, ?_⟩
    rintro rfl
    cases hdigit

/-- A group is a numeral. -/
theorem readNumeral_of_isGroup (h : isGroup t = true) :
    ∃ u < 65536, readGroup t = some u ∧ (GroupedText.readNumeral 16 t).getD 0 = u := by
  obtain ⟨u, hu⟩ := readGroup_of_isGroup h
  refine ⟨u, (readGroup_spec hu).1, hu, ?_⟩
  rw [readGroup, if_pos h] at hu
  rw [hu, Option.getD_some]

theorem readV4_quadOf {high low : ℕ} (hh : high < 65536) (hl : low < 65536) :
    readV4 (quadOf high low) = some (high * 65536 + low) := by
  have hoctets : ∀ k ∈ [high / 256, high % 256, low / 256, low % 256], k < 256 := by
    simp only [List.forall_mem_cons]
    exact ⟨by omega, by omega, by omega, by omega, nofun⟩
  have hsum : ((high / 256 * 256 + high % 256) * 256 + low / 256) * 256 + low % 256 =
      high * 65536 + low := by omega
  rw [quadOf, readV4_writeV4 hoctets, hsum]

/-- A text with the prefix is no quad. -/
theorem readV4_mappedPrefix : readV4 ("::ffff:".toList ++ tail) = none := by
  cases h : readV4 ("::ffff:".toList ++ tail) with
  | none => rfl
  | some n => exact absurd List.mem_cons_self (colon_not_mem_of_readV4 h)

/-- What a text with the prefix and two units after it stands for. -/
theorem readAddress_mappedPrefix {us : List ℕ} (h : readUnits (tail.splitOn ':') = some us)
    (hlen : us.length = 2) (hn : GroupedText.ungroup 65536 us = n) :
    readAddress ("::ffff:".toList ++ tail) = some (.v6 (0xffff * 2 ^ 32 + n)) := by
  rw [readAddress, readV4_mappedPrefix, readV6_mappedPrefix, h]
  simp only [Option.bind_some, hlen, hn, Nat.reduceLeDiff, if_true, Option.map_some, Nat.reducePow]

/-- The two ways in which an address is recognised. -/
theorem normalizedMappedIpv4_cases (hv : PlainText v)
    (h : normalizedMappedIpv4 validZone v = some m) :
    ∃ tail, v = "::ffff:".toList ++ tail ∧
      ((∃ n, readV4 tail = some n ∧ m = tail) ∨
        ∃ high low h l, tail.splitOn ':' = [high, low] ∧ readGroup high = some h ∧
          readGroup low = some l ∧ h < 65536 ∧ l < 65536 ∧ m = quadOf h l) := by
  rw [normalizedMappedIpv4, unzoned_of_plain hv] at h
  cases hafter : afterMappedPrefix v with
  | none =>
      rw [hafter] at h
      cases h
  | some tail =>
      rw [hafter] at h
      obtain rfl := afterMappedPrefix_eq_some.mp hafter
      have htail : PlainText tail := fun c hc => hv c (List.mem_append_right _ hc)
      refine ⟨tail, rfl, ?_⟩
      dsimp only at h
      split at h
      · rename_i hdotted
        rw [Bool.and_eq_true, beq_iff_eq] at hdotted
        obtain ⟨n, hn⟩ := (isIP_eq_four htail).mp hdotted.2
        exact .inl ⟨n, hn, (Option.some.inj h).symm⟩
      · split at h
        · rename_i high low hsplit
          split at h
          · rename_i hgroups
            rw [Bool.and_eq_true] at hgroups
            obtain ⟨hi, hhi, hreadHigh, hgetHigh⟩ := readNumeral_of_isGroup hgroups.1
            obtain ⟨lo, hlo, hreadLow, hgetLow⟩ := readNumeral_of_isGroup hgroups.2
            refine .inr ⟨high, low, hi, lo, hsplit, hreadHigh, hreadLow, hhi, hlo, ?_⟩
            rw [← Option.some.inj h, hgetHigh, hgetLow]
          · cases h
        · cases h

/-- A recognised address is mapped, and its quad is the one that it holds. -/
theorem mapped_spec (hv : PlainText v) (h : normalizedMappedIpv4 validZone v = some m) :
    ∃ n < 2 ^ 32, PlainText m ∧ readV4 m = some n ∧
      readAddress v = some (.v6 (0xffff * 2 ^ 32 + n)) ∧ "::ffff:".toList <+: v := by
  obtain ⟨tail, rfl, ⟨n, hn, rfl⟩ | ⟨high, low, hi, lo, hsplit, hhigh, hlow, hhi, hlo, rfl⟩⟩ :=
    normalizedMappedIpv4_cases hv h
  · have hlt := (readV4_parts hn).1
    have hunits : readUnits (m.splitOn ':') = some [n / 65536, n % 65536] := by
      rw [List.splitOn_eq_singleton (colon_not_mem_of_readV4 hn)]
      exact readUnits_quad hn
    refine ⟨n, hlt, fun c hc => hv c (List.mem_append_right _ hc), hn,
      readAddress_mappedPrefix hunits rfl ?_, List.prefix_append _ _⟩
    simp only [GroupedText.ungroup, List.foldl_cons, List.foldl_nil]
    omega
  · have hunits : readUnits (tail.splitOn ':') = some [hi, lo] := by
      rw [hsplit, readUnits_cons, hhigh, readUnits, hlow]
      rfl
    refine ⟨hi * 65536 + lo, by omega, plainText_quadOf hi lo, readV4_quadOf hhi hlo,
      readAddress_mappedPrefix hunits rfl ?_, List.prefix_append _ _⟩
    simp only [GroupedText.ungroup, List.foldl_cons, List.foldl_nil]
    omega

/-- With the prefix, what is not recognised is not mapped. -/
theorem not_mapped_of_unrecognised (hv : PlainText v)
    (h : normalizedMappedIpv4 validZone v = none) (hpre : "::ffff:".toList <+: v)
    (hx : readV6 v = some x) : ¬IsMapped x := by
  obtain ⟨tail, rfl⟩ := hpre
  have htail : PlainText tail := fun c hc => hv c (List.mem_append_right _ hc)
  rw [readV6_mappedPrefix] at hx
  obtain ⟨us, hunits, hx⟩ := Option.bind_eq_some_iff.mp hx
  split at hx
  · rename_i hlen
    obtain rfl := Option.some.inj hx
    rw [IsMapped, mapped_iff (readUnits_spec hunits).2 hlen]
    intro htwo
    rw [normalizedMappedIpv4, unzoned_of_plain hv, afterMappedPrefix_eq_some.mpr rfl] at h
    dsimp only at h
    split at h
    · cases h
    · rename_i hdotted
      obtain ⟨last, n, hsplit, hn, -⟩ | ⟨high, low, hi, lo, hsplit, hhigh, hlow, -⟩ :=
        readUnits_pair hunits htwo
      · have hlast : tail = last := by
          have hjoin : [':'].intercalate (tail.splitOn ':') = tail := List.intercalate_splitOn ':'
          rw [hsplit, List.intercalate_singleton] at hjoin
          exact hjoin.symm
        subst hlast
        refine hdotted ?_
        rw [isDotted_of_readV4 hn, (isIP_eq_four htail).mpr ⟨n, hn⟩]
        rfl
      · rw [hsplit] at h
        simp only [(readGroup_spec hhigh).2.1, (readGroup_spec hlow).2.1] at h
        cases h
  · cases hx

/-! ## The verdict of a text -/

theorem isOutsideBlocks_v4 (hv : PlainText v) (h : readV4 v = some n) :
    isOutsideBlocks validZone v = !listed4 n := by
  rw [isOutsideBlocks, if_pos ((isIP_eq_four hv).mpr ⟨n, h⟩), h, Option.any_some]

theorem isOutsideBlocks_v6 (hv : PlainText v) (h : readAddress v = some (.v6 x)) :
    isOutsideBlocks validZone v = !listed6 x := by
  have hsix : isIP validZone v = 6 := by rw [isIP_of_plain hv, h]
  rw [isOutsideBlocks, hsix, if_neg (by decide), if_pos rfl, readV6_of_readAddress h,
    Option.any_some]

theorem readAddress_of_outside (hv : PlainText v) (h : isOutsideBlocks validZone v = true) :
    ∃ addr, readAddress v = some addr := by
  cases hread : readAddress v with
  | some addr => exact ⟨addr, rfl⟩
  | none =>
      have hzero : isIP validZone v = 0 := by rw [isIP_of_plain hv, hread]
      rw [isOutsideBlocks, hzero] at h
      cases h

/-- The listed blocks hold no mapped address. -/
theorem listed6_of_mapped (h : IsMapped x) : listed6 x = false := by
  have hstarts : ∀ cidr ∈ blockedIpv6Cidrs, ∃ start, readV6 cidr.address.toList = some start ∧
      x / 2 ^ (128 - cidr.length) ≠ start / 2 ^ (128 - cidr.length) := by
    unfold IsMapped at h
    simp only [blockedIpv6Cidrs, List.forall_mem_cons]
    exact ⟨⟨0, by decide, by omega⟩, ⟨1, by decide, by omega⟩,
      ⟨0x64ff9b * 2 ^ 96, by decide, by omega⟩, ⟨0x64ff9b0001 * 2 ^ 80, by decide, by omega⟩,
      ⟨0x100 * 2 ^ 112, by decide, by omega⟩, ⟨0x2001 * 2 ^ 112, by decide, by omega⟩,
      ⟨0x20010db8 * 2 ^ 96, by decide, by omega⟩, ⟨0xfc00 * 2 ^ 112, by decide, by omega⟩,
      ⟨0xfe80 * 2 ^ 112, by decide, by omega⟩, ⟨0xff00 * 2 ^ 112, by decide, by omega⟩, nofun⟩
  rw [listed6, List.any_eq_false]
  intro cidr hcidr
  obtain ⟨start, hstart, hne⟩ := hstarts cidr hcidr
  rw [Cidr.contains, hstart, Option.any_some, beq_iff_eq]
  exact hne

theorem isPublicHostAddress_eq (t : List Char) : isPublicHostAddress validZone t =
    match normalizedMappedIpv4 validZone (unzoned t) with
    | some mapped => isOutsideBlocks validZone mapped
    | none => isOutsideBlocks validZone (unzoned t) := rfl

/-- The quad of a mapped address is judged as it is: nothing in it is mapped. -/
theorem isPublicHostAddress_mapped (h : normalizedMappedIpv4 validZone (unzoned t) = some m) :
    isPublicHostAddress validZone m = isOutsideBlocks validZone m := by
  obtain ⟨n, -, hm, hn, -⟩ := mapped_spec (plainText_unzoned t) h
  rw [isPublicHostAddress_eq, unzoned_of_plain hm]
  cases hmapped : normalizedMappedIpv4 validZone m with
  | none => rfl
  | some m' =>
      obtain ⟨n', -, -, -, hread, -⟩ := mapped_spec hm hmapped
      rw [readAddress, hn] at hread
      cases hread

/-- A recognised address: its verdict is that of the quad it holds. -/
theorem verdict_of_recognised (h : normalizedMappedIpv4 validZone (unzoned t) = some m) :
    ∃ n, readAddress (unzoned t) = some (.v6 n) ∧ IsMapped n ∧ "::ffff:".toList <+: unzoned t ∧
      isPublicHostAddress validZone t = !listed4 (n % 2 ^ 32) := by
  obtain ⟨n, hlt, hm, hn, hread, hpre⟩ := mapped_spec (plainText_unzoned t) h
  have hdiv : (0xffff * 2 ^ 32 + n) / 2 ^ 32 = 0xffff := by omega
  have hmod : (0xffff * 2 ^ 32 + n) % 2 ^ 32 = n := by omega
  refine ⟨_, hread, hdiv, hpre, ?_⟩
  rw [isPublicHostAddress_eq, h, hmod]
  exact isOutsideBlocks_v4 hm hn

theorem verdict_of_v4 (h : readAddress (unzoned t) = some (.v4 n)) :
    isPublicHostAddress validZone t = !listed4 n := by
  rw [isPublicHostAddress_eq]
  cases hmapped : normalizedMappedIpv4 validZone (unzoned t) with
  | none => exact isOutsideBlocks_v4 (plainText_unzoned t) (readV4_of_readAddress h)
  | some m =>
      obtain ⟨k, hk, -⟩ := verdict_of_recognised hmapped
      rw [h] at hk
      cases hk

/-- An address of the sixth version that is not recognised is compared with the blocks. -/
theorem verdict_of_v6 (h : readAddress (unzoned t) = some (.v6 x))
    (hmapped : normalizedMappedIpv4 validZone (unzoned t) = none) :
    isPublicHostAddress validZone t = !listed6 x := by
  rw [isPublicHostAddress_eq, hmapped]
  exact isOutsideBlocks_v6 (plainText_unzoned t) h

/-- The verdict of a text is that of its value, unless it hides a mapped address. -/
theorem verdict_iff (h : readAddress (unzoned t) = some addr) :
    ((isPublicHostAddress validZone t = true) ↔ addr.Public) ↔ ShowsMapped t := by
  cases addr with
  | v4 n =>
      rw [verdict_of_v4 h, Bool.not_eq_true']
      refine iff_of_true Iff.rfl ?_
      intro k hk
      rw [h] at hk
      cases hk
  | v6 x =>
      have hvalue : ∀ k, readAddress (unzoned t) = some (.v6 k) → k = x := by
        intro k hk
        rw [h] at hk
        exact (AddressValue.v6.inj (Option.some.inj hk)).symm
      cases hmapped : normalizedMappedIpv4 validZone (unzoned t) with
      | some m =>
          obtain ⟨k, hk, hkmapped, hpre, hverdict⟩ := verdict_of_recognised hmapped
          obtain rfl := hvalue k hk
          rw [hverdict, Bool.not_eq_true', AddressValue.Public, if_pos hkmapped]
          exact iff_of_true Iff.rfl fun _ _ _ _ => hpre
      | none =>
          rw [verdict_of_v6 h hmapped, Bool.not_eq_true', AddressValue.Public]
          by_cases hx : IsMapped x
          · -- outside every block, so the text passes
            have hpre : ¬"::ffff:".toList <+: unzoned t := fun hpre =>
              not_mapped_of_unrecognised (plainText_unzoned t) hmapped hpre
                (readV6_of_readAddress h) hx
            rw [listed6_of_mapped hx, if_pos hx]
            constructor
            · intro hpublic k hk _ hlisted
              obtain rfl := hvalue k hk
              rw [hpublic.mp rfl] at hlisted
              cases hlisted
            · intro hshows
              refine iff_of_true rfl ?_
              by_contra hlisted
              exact hpre (hshows x h hx (Bool.eq_true_of_not_eq_false hlisted))
          · rw [if_neg hx]
            refine iff_of_true Iff.rfl fun k hk hkmapped => ?_
            obtain rfl := hvalue k hk
            exact absurd hkmapped hx

/-- What is in a listed block is rejected. -/
theorem verdict_of_listed (h : readAddress (unzoned t) = some addr) (hlisted : addr.Listed) :
    isPublicHostAddress validZone t = false := by
  cases addr with
  | v4 n =>
      rw [verdict_of_v4 h, Bool.not_eq_false']
      exact hlisted
  | v6 x =>
      cases hmapped : normalizedMappedIpv4 validZone (unzoned t) with
      | some m =>
          obtain ⟨k, hk, hkmapped, -⟩ := verdict_of_recognised hmapped
          rw [h] at hk
          obtain rfl := AddressValue.v6.inj (Option.some.inj hk)
          exact absurd (listed6_of_mapped hkmapped) (Bool.eq_false_iff.not.mpr (not_not.mpr hlisted))
      | none =>
          rw [verdict_of_v6 h hmapped, Bool.not_eq_false']
          exact hlisted

/-- A text that passes stands for an address. -/
theorem readAddress_of_public (h : isPublicHostAddress validZone t = true) :
    ∃ addr, readAddress (unzoned t) = some addr := by
  cases hmapped : normalizedMappedIpv4 validZone (unzoned t) with
  | some m =>
      obtain ⟨n, hn, -⟩ := verdict_of_recognised hmapped
      exact ⟨_, hn⟩
  | none =>
      rw [isPublicHostAddress_eq, hmapped] at h
      exact readAddress_of_outside (plainText_unzoned t) h

/-- A text that the runtime takes for an address stands for one. -/
theorem readAddress_of_isIP (h : isIP validZone t ≠ 0) :
    ∃ addr, readAddress (unzoned t) = some addr := by
  cases hread : readAddress (unzoned t) with
  | some addr => exact ⟨addr, rfl⟩
  | none =>
      have hsix : readV6 (unzoned t) = none := by
        unfold readAddress at hread
        split at hread
        · cases hread
        · exact Option.map_eq_none_iff.mp hread
      refine absurd ?_ h
      rw [isIP, hread, hsix]
      simp

end Verdict

/-! ## What is resolved -/

section Resolution

variable {validZone : List Char → Bool} {parse : String → Option ParsedUrl}
  {withHost : String → List Char → String} {input : String}
  {resolver : List Char → List (List Char)} {target : ResolvedIncusTarget}
  {dnsLookup : List Char → Except String (List (List Char))} {hostname t : List Char}
  {records : List AddressRecord} {r : AddressRecord} {family : Option ℕ}

theorem chosenAddress_mem {addresses : List (List Char)} (h : addresses ≠ []) :
    chosenAddress validZone addresses ∈ addresses := by
  obtain ⟨first, rest, rfl⟩ := List.exists_cons_of_ne_nil h
  rw [chosenAddress]
  cases hfind : (first :: rest).find? fun candidate => isIP validZone candidate = 4 with
  | none => exact List.mem_cons_self
  | some found => exact List.mem_of_find?_eq_some hfind

theorem public_of_not_any {addresses : List (List Char)} {a : List Char}
    (h : ¬addresses.any (fun address => !isPublicHostAddress validZone address) = true)
    (ha : a ∈ addresses) : isPublicHostAddress validZone a = true := by
  by_contra hnot
  exact h (List.any_eq_true.mpr ⟨a, ha, by simpa using hnot⟩)

/-- Whatever is chosen has passed. -/
theorem resolveIncusTarget_public
    (h : resolveIncusTarget validZone parse withHost input false resolver = .ok target) :
    isPublicHostAddress validZone target.address = true := by
  unfold resolveIncusTarget at h
  split at h
  · cases h
  · obtain ⟨-, h⟩ := ok_of_guard h
    obtain ⟨hne, h⟩ := ok_of_guard h
    obtain ⟨hpublic, h⟩ := ok_of_guard h
    obtain ⟨-, h⟩ := ok_of_guard h
    obtain rfl := Except.ok.inj h
    exact public_of_not_any hpublic (chosenAddress_mem hne)

theorem resolvePublicAddresses_public
    (h : resolvePublicAddresses validZone dnsLookup hostname = .ok records) (hr : r ∈ records) :
    isPublicHostAddress validZone r.address = true := by
  unfold resolvePublicAddresses at h
  obtain ⟨-, h⟩ := ok_of_guard h
  obtain ⟨-, h⟩ := ok_of_guard h
  split at h
  · obtain ⟨hpublic, h⟩ := ok_of_guard h
    obtain rfl := Except.ok.inj h
    obtain rfl := List.mem_singleton.mp hr
    simpa using hpublic
  · obtain ⟨-, h⟩ := ok_of_guard h
    split at h
    · cases h
    · obtain ⟨-, h⟩ := ok_of_guard h
      obtain ⟨hpublic, h⟩ := ok_of_guard h
      obtain rfl := Except.ok.inj h
      obtain ⟨address, haddress, rfl⟩ := List.mem_map.mp hr
      exact public_of_not_any hpublic haddress

theorem safeDnsLookup_public (h : safeDnsLookup validZone dnsLookup hostname family = .ok r) :
    isPublicHostAddress validZone r.address = true := by
  unfold safeDnsLookup at h
  split at h
  · cases h
  · rename_i records hrecords
    dsimp only at h
    split at h
    · rename_i selected hselected
      obtain rfl := Except.ok.inj h
      refine resolvePublicAddresses_public hrecords ?_
      rcases Option.or_eq_some_iff.mp hselected with hhead | ⟨-, hhead⟩
      · have hmem := List.mem_of_mem_head? hhead
        split at hmem
        · exact List.mem_of_mem_filter hmem
        · exact hmem
      · exact List.mem_of_mem_head? hhead
    · cases h

/-- What has passed stands for an address, public when its text shows what it is. -/
theorem public_of_verdict (h : isPublicHostAddress validZone t = true) :
    ∃ addr, readAddress (unzoned t) = some addr ∧ (addr.Public ↔ ShowsMapped t) := by
  obtain ⟨addr, haddr⟩ := readAddress_of_public h
  refine ⟨addr, haddr, ?_⟩
  rw [← verdict_iff haddr, h]
  simp

end Resolution

/-- The verdict of a text is that of its value exactly when the text does not hide a mapped
address, and what is in a listed block is always rejected; so what hosts and outbound
targets are resolved to is public exactly when its text does not hide one. -/
theorem public_by_value_iff (validZone : List Char → Bool) :
    (∀ text, isIP validZone text ≠ 0 → ∃ addr, readAddress (unzoned text) = some addr ∧
      (((isPublicHostAddress validZone text = true) ↔ addr.Public) ↔ ShowsMapped text) ∧
      (addr.Listed → isPublicHostAddress validZone text = false)) ∧
    (∀ parse withHost input resolver target,
      resolveIncusTarget validZone parse withHost input false resolver = .ok target →
      ∃ addr, readAddress (unzoned target.address) = some addr ∧
        (addr.Public ↔ ShowsMapped target.address)) ∧
    (∀ dnsLookup hostname records,
      resolvePublicAddresses validZone dnsLookup hostname = .ok records → ∀ r ∈ records,
      ∃ addr, readAddress (unzoned r.address) = some addr ∧
        (addr.Public ↔ ShowsMapped r.address)) ∧
    ∀ dnsLookup hostname family r,
      safeDnsLookup validZone dnsLookup hostname family = .ok r →
      ∃ addr, readAddress (unzoned r.address) = some addr ∧
        (addr.Public ↔ ShowsMapped r.address) := by
  refine ⟨fun text htext => ?_, fun parse withHost input resolver target h => ?_,
    fun dnsLookup hostname records h r hr => ?_, fun dnsLookup hostname family r h => ?_⟩
  · obtain ⟨addr, haddr⟩ := readAddress_of_isIP htext
    exact ⟨addr, haddr, verdict_iff haddr, verdict_of_listed haddr⟩
  · exact public_of_verdict (resolveIncusTarget_public h)
  · exact public_of_verdict (resolvePublicAddresses_public h hr)
  · exact public_of_verdict (safeDnsLookup_public h)

/-! ## A mapped address that passes -/

/-- `[0-9a-zA-Z-.:]{1,}` -/
def nodeZone (zone : List Char) : Bool :=
  zone ≠ [] && zone.all fun c => c.isAlphanum || c ∈ "-.:".toList

/-- `127.0.0.1` as a mapped address, with its zeros written out. -/
def spelledLoopback : List Char := "0:0:0:0:0:ffff:7f00:1".toList

/-- The loopback address passes, though under the prefix it does not; and a host that
resolves to it is taken. -/
theorem loopback_passes :
    isIP nodeZone spelledLoopback = 6 ∧
      readAddress (unzoned spelledLoopback) = some (.v6 (0xffff * 2 ^ 32 + 0x7f000001)) ∧
      readAddress (unzoned "::ffff:127.0.0.1".toList) =
        some (.v6 (0xffff * 2 ^ 32 + 0x7f000001)) ∧
      ¬(AddressValue.v6 (0xffff * 2 ^ 32 + 0x7f000001)).Public ∧
      isPublicHostAddress nodeZone spelledLoopback = true ∧
      isPublicHostAddress nodeZone "::ffff:127.0.0.1".toList = false ∧
      resolveIncusTarget nodeZone (fun _ => some ⟨"https:", "", "", "h.example".toList⟩)
          (fun input _ => input) "https://h.example" false (fun _ => [spelledLoopback]) =
        .ok ⟨"https://h.example", some "h.example".toList, spelledLoopback⟩ := by
  have hblocked : listed4 ((0xffff * 2 ^ 32 + 0x7f000001) % 2 ^ 32) = true := by decide +kernel
  refine ⟨by decide +kernel, by decide +kernel, by decide +kernel, ?_, by decide +kernel,
    by decide +kernel, by decide +kernel⟩
  rw [AddressValue.Public, if_pos (by decide), hblocked]
  nofun

end Incudal
