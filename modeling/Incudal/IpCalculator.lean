/-
# `IpCalculator` — IPv6 addresses and subnets out of a host's subnet

The subnet of a host is any text the address library reads; a plain address is a
subnet of one.  `::0` and `::1` of the subnet are reserved.  An address is drawn
from the third on and a subnet of a longer prefix by its number, both by
`Math.random` while the count is a safe integer, else by eight random bytes.

The offset of an address is always recovered from it.  What is drawn is always
inside, but there is not always something to draw: a subnet of one or two
addresses has none past the reserved ones, and the address then lies outside.  A
drawn subnet may be the first, whose address is the reserved `::0`
(`ip_allocation_iff`).
-/
import Incudal.Lib.AddressBlock
import Incudal.Lib.Binary64
import Incudal.Lib.GroupedText
import Mathlib.Data.Int.Order.Lemmas

namespace Incudal

/-! ## Numbers -/

/-- `Number(z)` of a big integer. -/
def toNumber (z : ℤ) : ℤ := z.sign * Binary64.toDouble z.natAbs

/-- The numbers that are integers. -/
def IntegerNumber := {z : ℤ // toNumber z = z}

/-- `BigInt(Number.MAX_SAFE_INTEGER)`. -/
def maxSafeBigInt : ℤ := 2 ^ 53 - 1

/-- What `Math.random()` returns: a double from zero on, below one. -/
structure RandomNumber where
  significand : ℕ
  scale : ℕ
  significand_lt : significand < 2 ^ 53
  lt_one : significand < 2 ^ scale

/-- `Math.floor(Math.random() * z)`; the product is rounded. -/
def RandomNumber.floorMul (random : RandomNumber) (z : ℤ) : ℤ :=
  z.sign * Binary64.toDouble (random.significand * z.natAbs) / 2 ^ random.scale

/-- The bytes as one number, which is what their hexadecimal text says. -/
def bigIntOfBytes (bytes : Vector UInt8 8) : ℤ :=
  bytes.toList.foldl (fun n byte => n * 256 + byte.toNat) 0

/-- What a call may draw. -/
structure Draws where
  random : RandomNumber
  bytes : Vector UInt8 8

/-- A number below `z`: from the bytes for a large range, else by `Math.random`. -/
def Draws.below (draws : Draws) (large : Prop) [Decidable large] (z : ℤ) : ℤ :=
  if large then (bigIntOfBytes draws.bytes).tmod z
  else draws.random.floorMul (toNumber z)

/-! ## The address library

`Address6` of the package `ip-address`, as far as it is used. -/

structure Address6Api (Address6 : Type) where
  isValid : String → Bool
  new : String → Except String Address6
  subnetMask : Address6 → ℕ
  startAddress : Address6 → Address6
  endAddress : Address6 → Address6
  bigInt : Address6 → ℤ
  fromBigInt : ℤ → Except String Address6
  correctForm : Address6 → String

variable {Address6 : Type} (api : Address6Api Address6)

namespace Address6Api

/-- `Address6.fromBigInt(n).correctForm()`. -/
def textOf (n : ℤ) : Except String String := do
  let address ← api.fromBigInt n
  return api.correctForm address

/-- The text is valid and read as the address. -/
def Opens (text : String) (address : Address6) : Prop :=
  api.isValid text = true ∧ api.new text = .ok address

/-- The text is read as the address `n` with a mask. -/
def Denotes (text : String) (n : ℤ) (mask : ℕ) : Prop :=
  ∃ address, api.Opens text address ∧ api.bigInt address = n ∧ api.subnetMask address = mask

/-- What is relied on: a valid text is read, an address has 128 bits, a subnet runs
over the addresses that share its prefix, and the text of a number, with or
without a prefix length behind it, is read as that number. -/
structure Lawful : Prop where
  new_of_isValid : ∀ text, api.isValid text = true → ∃ address, api.new text = .ok address
  subnetMask_le : ∀ address, api.subnetMask address ≤ 128
  bigInt_nonneg : ∀ address, 0 ≤ api.bigInt address
  bigInt_lt : ∀ address, api.bigInt address < 2 ^ 128
  startAddress : ∀ address, api.bigInt (api.startAddress address) =
    api.bigInt address / 2 ^ (128 - api.subnetMask address) * 2 ^ (128 - api.subnetMask address)
  endAddress : ∀ address, api.bigInt (api.endAddress address) =
    api.bigInt (api.startAddress address) + 2 ^ (128 - api.subnetMask address) - 1
  textOf : ∀ n, 0 ≤ n → n < 2 ^ 128 → ∃ text, api.textOf n = .ok text ∧ api.Denotes text n 128 ∧
    ∀ mask ≤ 128, api.Denotes (text ++ "/" ++ toString mask) n mask

end Address6Api

/-! ## The calculator -/

/-- Past `::0`, the router, and `::1`, the gateway. -/
def calculateIPv6 (subnetStr : String) (offset : IntegerNumber) : Except String String := do
  if !api.isValid subnetStr then
    throw s!"Invalid IPv6 subnet: {subnetStr}"
  let subnet ← api.new subnetStr
  let startBigInt := api.bigInt (api.startAddress subnet)
  let targetBigInt := startBigInt + offset.val + 2
  api.textOf targetBigInt

def getIPv6Offset (subnetStr address : String) : Except String ℤ := do
  if !api.isValid subnetStr || !api.isValid address then
    throw "Invalid subnet or address"
  let subnet ← api.new subnetStr
  let addr ← api.new address
  let startBigInt := api.bigInt (api.startAddress subnet)
  let addrBigInt := api.bigInt addr
  return toNumber (addrBigInt - startBigInt - 2)

def generateRandomIPv6 (subnetStr : String) (draws : Draws) : Except String String := do
  if !api.isValid subnetStr then
    throw s!"Invalid IPv6 subnet: {subnetStr}"
  let subnet ← api.new subnetStr
  let startBigInt := api.bigInt (api.startAddress subnet)
  let endBigInt := api.bigInt (api.endAddress subnet)
  let minAddress := startBigInt + 2
  let maxAddress := endBigInt
  let addressRange := maxAddress - minAddress
  let randomOffset := draws.below (maxSafeBigInt < addressRange) (addressRange + 1)
  let targetBigInt := minAddress + randomOffset
  api.textOf targetBigInt

/-- `1 << k` on big integers: a negative shift goes right. -/
def bigShiftLeft (k : ℤ) : ℤ := if 0 ≤ k then 2 ^ k.toNat else 1 / 2 ^ (-k).toNat

def generateRandomSubnet (hostSubnet : String) (targetPrefix : ℕ) (draws : Draws) :
    Except String String := do
  if !api.isValid hostSubnet then
    throw s!"Invalid IPv6 subnet: {hostSubnet}"
  let subnet ← api.new hostSubnet
  let hostPrefix := api.subnetMask subnet
  if targetPrefix ≤ hostPrefix then
    throw s!"Target prefix /{targetPrefix} must be greater than host prefix /{hostPrefix}"
  let subnetBits := targetPrefix - hostPrefix
  let maxSubnets := bigShiftLeft subnetBits
  let subnetIndex := draws.below (maxSafeBigInt < maxSubnets) maxSubnets
  let hostStart := api.bigInt (api.startAddress subnet)
  let subnetSize := bigShiftLeft (128 - targetPrefix)
  let subnetStart := hostStart + subnetIndex * subnetSize
  let subnetAddress ← api.textOf subnetStart
  return subnetAddress ++ "/" ++ toString targetPrefix

def isIpv6InSubnet (address subnetStr : String) : Bool :=
  let inSubnet : Except String Bool := do
    if !api.isValid address || !api.isValid subnetStr then
      return false
    let addr ← api.new address
    let subnet ← api.new subnetStr
    let addrBigInt := api.bigInt addr
    let subnetStart := api.bigInt (api.startAddress subnet)
    let subnetEnd := api.bigInt (api.endAddress subnet)
    return subnetStart ≤ addrBigInt && addrBigInt ≤ subnetEnd
  inSubnet.toOption.getD false

/-! ## What is drawn -/

variable {z : ℤ} {random : RandomNumber} {draws : Draws}

theorem toNumber_of_le (h : 0 ≤ z) (h' : z ≤ 2 ^ 53) : toNumber z = z := by
  obtain ⟨n, rfl⟩ := Int.eq_ofNat_of_zero_le h
  have hdouble : Binary64.toDouble n = n := by
    rcases Nat.lt_or_ge n (2 ^ 53) with hlt | hge
    · exact Binary64.toDouble_of_lt hlt
    · have heq : n = 1 * 2 ^ 53 := by omega
      rw [heq]
      exact Binary64.toDouble_mul_two_pow (by norm_num)
  rcases Nat.eq_zero_or_pos n with rfl | hpos
  · rfl
  · rw [toNumber, Int.natAbs_natCast, hdouble, Int.sign_natCast_of_ne_zero hpos.ne', one_mul]

theorem RandomNumber.floorMul_natCast (n : ℕ) (hn : 0 < n) :
    random.floorMul n = (Binary64.toDouble (random.significand * n) / 2 ^ random.scale : ℕ) := by
  rw [floorMul, Int.sign_natCast_of_ne_zero hn.ne', one_mul, Int.natAbs_natCast]
  push_cast
  rfl

/-- The product stays below the number, rounded as it is. -/
theorem RandomNumber.floorMul_bounds (hz : 0 < z) :
    0 ≤ random.floorMul z ∧ random.floorMul z < z := by
  obtain ⟨n, rfl⟩ := Int.eq_ofNat_of_zero_le hz.le
  have hn : 0 < n := Int.natCast_pos.mp hz
  have hround := Binary64.toDouble_mul_lt random.significand_lt random.lt_one hn
  rw [floorMul_natCast n hn]
  constructor
  · exact Int.natCast_nonneg _
  · exact Int.ofNat_lt.mpr ((Nat.div_lt_iff_lt_mul (Nat.two_pow_pos _)).mpr hround)

theorem RandomNumber.le_floorMul_two_pow (blocks bits : ℕ) :
    (blocks : ℤ) ≤ random.floorMul (2 ^ bits) ↔
      blocks * 2 ^ random.scale ≤ random.significand * 2 ^ bits := by
  have heq := random.floorMul_natCast (2 ^ bits) (Nat.two_pow_pos bits)
  rw [Binary64.toDouble_mul_two_pow random.significand_lt] at heq
  push_cast at heq
  rw [heq]
  norm_cast
  exact Nat.le_div_iff_mul_le (Nat.two_pow_pos _)

theorem bigIntOfBytes_nonneg (bytes : Vector UInt8 8) : 0 ≤ bigIntOfBytes bytes := by
  have hfold : ∀ (l : List UInt8) (n : ℤ), 0 ≤ n →
      0 ≤ l.foldl (fun n byte => n * 256 + (byte.toNat : ℤ)) n := by
    intro l
    induction l with
    | nil => exact fun n hn => hn
    | cons byte l ih =>
        intro n hn
        exact ih _ (by positivity)
  exact hfold _ 0 le_rfl

theorem Draws.below_bounds (draws : Draws) (large : Prop) [Decidable large] (hz : 0 < z)
    (hsmall : ¬ large → z ≤ 2 ^ 53) : 0 ≤ draws.below large z ∧ draws.below large z < z := by
  by_cases hlarge : large
  · rw [Draws.below, if_pos hlarge]
    exact ⟨Int.tmod_nonneg z (bigIntOfBytes_nonneg _), Int.tmod_lt_of_pos _ hz⟩
  · rw [Draws.below, if_neg hlarge, toNumber_of_le hz.le (hsmall hlarge)]
    exact RandomNumber.floorMul_bounds hz

/-- The draw is `blocks` at least, out of `2 ^ bits`. -/
def Draws.Reaches (draws : Draws) (bits blocks : ℕ) : Prop :=
  if bits ≤ 52 then blocks * 2 ^ draws.random.scale ≤ draws.random.significand * 2 ^ bits
  else (blocks : ℤ) ≤ bigIntOfBytes draws.bytes % 2 ^ bits

instance (bits blocks : ℕ) : Decidable (draws.Reaches bits blocks) :=
  inferInstanceAs (Decidable (if bits ≤ 52 then _ else _))

theorem Draws.le_below_iff {bits blocks : ℕ} :
    (blocks : ℤ) ≤ draws.below (maxSafeBigInt < 2 ^ bits) (2 ^ bits) ↔
      draws.Reaches bits blocks := by
  rcases Nat.lt_or_ge 52 bits with hlarge | hsmall
  · have hpow : (2 : ℤ) ^ 53 ≤ 2 ^ bits := pow_le_pow_right₀ (by norm_num) hlarge
    have hlt : maxSafeBigInt < 2 ^ bits := by
      rw [maxSafeBigInt]
      linarith
    rw [Draws.below, if_pos hlt, Draws.Reaches, if_neg (by omega),
      Int.tmod_eq_emod_of_nonneg (bigIntOfBytes_nonneg _)]
  · have hpow : (2 : ℤ) ^ bits ≤ 2 ^ 52 := pow_le_pow_right₀ (by norm_num) hsmall
    have hge : ¬ maxSafeBigInt < 2 ^ bits := by
      rw [maxSafeBigInt]
      linarith
    rw [Draws.below, if_neg hge, Draws.Reaches, if_pos hsmall,
      toNumber_of_le (by positivity) (by linarith)]
    exact RandomNumber.le_floorMul_two_pow blocks bits

/-! ## The subnet of a host -/

variable {api} {subnetStr text : String} {host address : Address6} {n : ℤ} {mask targetPrefix : ℕ}
  {offset : IntegerNumber}

namespace Address6Api

/-- The block of an address and its mask. -/
def Lawful.block (hlaw : api.Lawful) (address : Address6) : AddressBlock 128 :=
  .around (api.bigInt address) (api.subnetMask address) (hlaw.subnetMask_le address)
    (hlaw.bigInt_nonneg address) (hlaw.bigInt_lt address)

theorem Lawful.block_length (hlaw : api.Lawful) :
    (hlaw.block address).length = api.subnetMask address := rfl

theorem Lawful.block_start (hlaw : api.Lawful) :
    (hlaw.block address).start = api.bigInt (api.startAddress address) :=
  (hlaw.startAddress address).symm

theorem Lawful.block_last (hlaw : api.Lawful) :
    (hlaw.block address).last = api.bigInt (api.endAddress address) := by
  rw [AddressBlock.last, hlaw.block_start, hlaw.endAddress]
  rfl

theorem Opens.eq (h : api.Opens text address) {address' : Address6}
    (h' : api.Opens text address') : address = address' := by
  have := h.2.symm.trans h'.2
  injection this

/-- A text denotes one number only. -/
theorem Denotes.bigInt_eq (h : api.Denotes text n mask) (hopens : api.Opens text address) :
    api.bigInt address = n := by
  obtain ⟨address', hopens', hn, -⟩ := h
  rw [hopens.eq hopens', hn]

end Address6Api

/-! ## The functions on a valid subnet -/

theorem calculateIPv6_of_opens (h : api.Opens subnetStr host) :
    calculateIPv6 api subnetStr offset =
      api.textOf (api.bigInt (api.startAddress host) + offset.val + 2) := by
  simp only [calculateIPv6, h.1, h.2]
  rfl

theorem getIPv6Offset_of_opens (h : api.Opens subnetStr host) (h' : api.Opens text address) :
    getIPv6Offset api subnetStr text =
      .ok (toNumber (api.bigInt address - api.bigInt (api.startAddress host) - 2)) := by
  simp only [getIPv6Offset, h.1, h'.1, h.2, h'.2]
  rfl

theorem generateRandomIPv6_of_opens (hlaw : api.Lawful) (h : api.Opens subnetStr host) :
    generateRandomIPv6 api subnetStr draws =
      api.textOf ((hlaw.block host).start + 2 +
        draws.below (maxSafeBigInt < (hlaw.block host).size - 3) ((hlaw.block host).size - 2)) := by
  have hrange : api.bigInt (api.endAddress host) - (api.bigInt (api.startAddress host) + 2) =
      (hlaw.block host).size - 3 := by
    rw [← hlaw.block_last, ← hlaw.block_start, AddressBlock.last]
    ring
  simp only [generateRandomIPv6, h.1, h.2, bind, Except.bind, hrange, hlaw.block_start]
  have hcount : (hlaw.block host).size - 3 + 1 = (hlaw.block host).size - 2 := by ring
  rw [hcount]
  rfl

theorem bigShiftLeft_natCast (k : ℕ) : bigShiftLeft k = 2 ^ k := by
  rw [bigShiftLeft, if_pos (Int.natCast_nonneg k), Int.toNat_natCast]

theorem generateRandomSubnet_of_opens (hlaw : api.Lawful) (h : api.Opens subnetStr host)
    (hlt : api.subnetMask host < targetPrefix) (hle : targetPrefix ≤ 128) :
    generateRandomSubnet api subnetStr targetPrefix draws = (do
      let subnetAddress ← api.textOf ((hlaw.block host).start +
        draws.below (maxSafeBigInt < 2 ^ (targetPrefix - api.subnetMask host))
          (2 ^ (targetPrefix - api.subnetMask host)) * 2 ^ (128 - targetPrefix))
      return subnetAddress ++ "/" ++ toString targetPrefix) := by
  have hsize : (128 : ℤ) - (targetPrefix : ℤ) = ((128 - targetPrefix : ℕ) : ℤ) := by omega
  simp only [generateRandomSubnet, h.1, h.2, bind, Except.bind, hsize, bigShiftLeft_natCast,
    if_neg (Nat.not_le.mpr hlt), hlaw.block_start]
  rfl

/-! ## What may be handed out -/

/-- A text that stands for a block of the asked prefix length: aligned, inside the
subnet of the host, and its address is not one of the two reserved. -/
structure Address6Api.Allocated (api : Address6Api Address6) (host : Address6) (asked : ℕ)
    (text : String) (block : Address6) : Prop where
  opens : api.Opens text block
  mask_eq : api.subnetMask block = asked
  aligned : 2 ^ (128 - asked) ∣ api.bigInt block
  start_le : api.bigInt (api.startAddress host) ≤ api.bigInt (api.startAddress block)
  le_end : api.bigInt (api.endAddress block) ≤ api.bigInt (api.endAddress host)
  ne_router : api.bigInt block ≠ api.bigInt (api.startAddress host)
  ne_gateway : api.bigInt block ≠ api.bigInt (api.startAddress host) + 1

/-- A call returns such a text. -/
def Address6Api.Allocates (api : Address6Api Address6) (host : Address6) (asked : ℕ)
    (result : Except String String) : Prop :=
  ∃ text block, result = .ok text ∧ api.Allocated host asked text block

/-- The block of an aligned address starts with it. -/
theorem block_start_of_aligned (hlaw : api.Lawful)
    (h : 2 ^ (128 - api.subnetMask address) ∣ api.bigInt address) :
    (hlaw.block address).start = api.bigInt address :=
  Int.ediv_mul_cancel h

/-- A denoted block past the two reserved addresses is allocated. -/
theorem allocated_of_denotes (hlaw : api.Lawful) {asked : ℕ} (h : api.Denotes text n asked)
    (haligned : 2 ^ (128 - asked) ∣ n) (hlow : (hlaw.block host).start + 2 ≤ n)
    (hhigh : n + 2 ^ (128 - asked) - 1 ≤ (hlaw.block host).last) :
    ∃ block, api.Allocated host asked text block := by
  obtain ⟨block, hopens, rfl, rfl⟩ := h
  have hstart := block_start_of_aligned hlaw haligned
  have hlast : (hlaw.block block).last =
      api.bigInt block + 2 ^ (128 - api.subnetMask block) - 1 := by
    rw [AddressBlock.last, hstart]
    rfl
  rw [hlaw.block_start] at hlow hstart
  rw [hlaw.block_last] at hlast hhigh
  exact ⟨block, hopens, rfl, haligned, by linarith, by linarith, by linarith, by linarith⟩

/-- The module's own check agrees. -/
theorem isIpv6InSubnet_of_allocated (hlaw : api.Lawful) (hopens : api.Opens subnetStr host)
    {asked : ℕ} (h : api.Allocated host asked text address) :
    isIpv6InSubnet api text subnetStr = true := by
  have hstart : api.bigInt (api.startAddress address) = api.bigInt address := by
    rw [← hlaw.block_start]
    exact block_start_of_aligned hlaw (h.mask_eq.symm ▸ h.aligned)
  have hlow := h.start_le
  have hhigh : api.bigInt address ≤ api.bigInt (api.endAddress host) := by
    have hle := h.le_end
    have hpos := (hlaw.block address).size_pos
    rw [← hlaw.block_last, AddressBlock.last, hlaw.block_start, hstart] at hle
    linarith
  rw [hstart] at hlow
  simp only [isIpv6InSubnet, h.opens.1, h.opens.2, hopens.1, hopens.2, bind, Except.bind]
  exact Bool.and_eq_true_iff.mpr ⟨decide_eq_true hlow, decide_eq_true hhigh⟩

/-- A subnet of one or two addresses has nothing to hand out. -/
theorem not_allocated_of_small (hlaw : api.Lawful) (hsmall : 127 ≤ api.subnetMask host)
    {asked : ℕ} : ¬ api.Allocated host asked text address := by
  intro h
  have hstart : api.bigInt (api.startAddress address) = api.bigInt address := by
    rw [← hlaw.block_start]
    exact block_start_of_aligned hlaw (h.mask_eq.symm ▸ h.aligned)
  have hlow := h.start_le
  have hhigh := h.le_end
  have hpos := (hlaw.block address).size_pos
  have hsize : (hlaw.block host).size ≤ 2 := AddressBlock.size_le_two (by
    rw [hlaw.block_length]
    omega)
  rw [← hlaw.block_last, ← hlaw.block_last, AddressBlock.last, AddressBlock.last,
    hlaw.block_start, hlaw.block_start, hstart] at hhigh
  rw [hstart] at hlow
  have hrouter := h.ne_router
  have hgateway := h.ne_gateway
  omega

/-! ## The three functions -/

theorem allocates_textOf (hlaw : api.Lawful) (hlow : (hlaw.block host).start + 2 ≤ n)
    (hhigh : n ≤ (hlaw.block host).last) : api.Allocates host 128 (api.textOf n) := by
  have hmem : n ∈ hlaw.block host := ⟨by linarith, hhigh⟩
  obtain ⟨hn, hn'⟩ := AddressBlock.bounds_of_mem hmem
  obtain ⟨text, htext, hdenotes, -⟩ := hlaw.textOf n hn hn'
  obtain ⟨block, hblock⟩ := allocated_of_denotes hlaw hdenotes (one_dvd n) hlow (by
    rw [Nat.sub_self, pow_zero]
    linarith)
  exact ⟨text, block, htext, hblock⟩

theorem generateRandomIPv6_allocates_iff (hlaw : api.Lawful) (hopens : api.Opens subnetStr host) :
    api.Allocates host 128 (generateRandomIPv6 api subnetStr draws) ↔
      api.subnetMask host ≤ 126 := by
  constructor
  · rintro ⟨text, block, -, hblock⟩
    by_contra hmask
    exact not_allocated_of_small hlaw (by omega) hblock
  · intro hmask
    have hsize : 4 ≤ (hlaw.block host).size := AddressBlock.four_le_size (by
      rw [hlaw.block_length]
      omega)
    have hcount : 0 < (hlaw.block host).size - 2 := by linarith
    obtain ⟨hlow, hhigh⟩ :=
      draws.below_bounds (maxSafeBigInt < (hlaw.block host).size - 3) hcount (by
        intro hrange
        rw [maxSafeBigInt] at hrange
        linarith)
    rw [generateRandomIPv6_of_opens hlaw hopens]
    refine allocates_textOf hlaw ?_ ?_
    · linarith
    · rw [AddressBlock.last]
      linarith

/-- How many of the blocks of a prefix hold reserved addresses. -/
def reservedBlocks (targetPrefix : ℕ) : ℕ := if targetPrefix = 128 then 2 else 1

theorem reservedBlocks_le_iff {i : ℤ} (hi : 0 ≤ i) (hle : targetPrefix ≤ 128) :
    (reservedBlocks targetPrefix : ℤ) ≤ i ↔ 2 ≤ i * 2 ^ (128 - targetPrefix) := by
  rcases Nat.lt_or_ge targetPrefix 128 with hlt | hge
  · obtain ⟨k, hk⟩ : ∃ k, 128 - targetPrefix = k + 1 := ⟨127 - targetPrefix, by omega⟩
    have hpos : (0 : ℤ) < 2 ^ k := by positivity
    rw [reservedBlocks, if_neg (by omega), hk, pow_succ]
    constructor
    · intro h
      have : 1 * 2 ^ k ≤ i * 2 ^ k := Int.mul_le_mul_of_nonneg_right h hpos.le
      linarith
    · intro h
      by_contra hzero
      have : i = 0 := by omega
      rw [this, zero_mul] at h
      omega
  · rw [reservedBlocks, if_pos (by omega), Nat.sub_eq_zero_of_le hge, pow_zero, mul_one]
    rfl

/-- The part of the host's block with number `i`, as a text. -/
theorem allocates_part_iff (hlaw : api.Lawful) (hlt : api.subnetMask host < targetPrefix)
    (hle : targetPrefix ≤ 128) {i : ℤ} (hi : 0 ≤ i)
    (hi' : i < 2 ^ (targetPrefix - api.subnetMask host)) :
    api.Allocates host targetPrefix (do
      let subnetAddress ← api.textOf ((hlaw.block host).start + i * 2 ^ (128 - targetPrefix))
      return subnetAddress ++ "/" ++ toString targetPrefix) ↔
        2 ≤ i * 2 ^ (128 - targetPrefix) := by
  let part := (hlaw.block host).child targetPrefix i hlt.le hle hi hi'
  have hstart : part.start = (hlaw.block host).start + i * 2 ^ (128 - targetPrefix) := rfl
  have hmem : part.start ∈ part := ⟨le_rfl, by
    have := part.size_pos
    rw [AddressBlock.last]
    linarith⟩
  obtain ⟨hn, hn'⟩ := AddressBlock.bounds_of_mem hmem
  obtain ⟨text, htext, -, hcidr⟩ := hlaw.textOf part.start hn hn'
  have hdenotes := hcidr targetPrefix hle
  rw [← hstart, htext]
  constructor
  · rintro ⟨text', block, htext', hblock⟩
    cases htext'
    have hrouter := hblock.ne_router
    have hgateway := hblock.ne_gateway
    have hpos : 0 ≤ i * 2 ^ (128 - targetPrefix) := Int.mul_nonneg hi (by positivity)
    rw [hdenotes.bigInt_eq hblock.opens, ← hlaw.block_start, hstart] at hrouter hgateway
    omega
  · intro htwo
    have hlow : (hlaw.block host).start + 2 ≤ part.start := by linarith
    obtain ⟨block, hblock⟩ :=
      allocated_of_denotes hlaw hdenotes part.aligned hlow AddressBlock.child_last_le
    exact ⟨_, block, rfl, hblock⟩

theorem generateRandomSubnet_allocates_iff (hlaw : api.Lawful)
    (hopens : api.Opens subnetStr host) (hlt : api.subnetMask host < targetPrefix)
    (hle : targetPrefix ≤ 128) :
    api.Allocates host targetPrefix (generateRandomSubnet api subnetStr targetPrefix draws) ↔
      draws.Reaches (targetPrefix - api.subnetMask host) (reservedBlocks targetPrefix) := by
  have hcount : (0 : ℤ) < 2 ^ (targetPrefix - api.subnetMask host) := by positivity
  obtain ⟨hi, hi'⟩ :=
    draws.below_bounds (maxSafeBigInt < 2 ^ (targetPrefix - api.subnetMask host)) hcount (by
      intro hsmall
      rw [maxSafeBigInt] at hsmall
      linarith)
  rw [generateRandomSubnet_of_opens hlaw hopens hlt hle, allocates_part_iff hlaw hlt hle hi hi',
    ← reservedBlocks_le_iff hi hle, Draws.le_below_iff]

/-- The offset is read back from the address. -/
theorem getIPv6Offset_calculateIPv6 (hlaw : api.Lawful) (hopens : api.Opens subnetStr host)
    (hlow : 0 ≤ offset.val)
    (hhigh : api.bigInt (api.startAddress host) + offset.val + 2 ≤
      api.bigInt (api.endAddress host)) :
    (calculateIPv6 api subnetStr offset >>= getIPv6Offset api subnetStr) = .ok offset.val := by
  have hmem : api.bigInt (api.startAddress host) + offset.val + 2 ∈ hlaw.block host := by
    rw [← hlaw.block_last] at hhigh
    rw [← hlaw.block_start] at hhigh ⊢
    exact ⟨by linarith, hhigh⟩
  obtain ⟨hn, hn'⟩ := AddressBlock.bounds_of_mem hmem
  obtain ⟨text, htext, ⟨address, hopens', haddress, -⟩, -⟩ := hlaw.textOf _ hn hn'
  have hoffset : api.bigInt address - api.bigInt (api.startAddress host) - 2 = offset.val := by
    rw [haddress]
    ring
  rw [calculateIPv6_of_opens hopens, htext]
  show getIPv6Offset api subnetStr text = _
  rw [getIPv6Offset_of_opens hopens hopens', hoffset, offset.property]

/-! ## The library on full texts

A text with all its eight groups, no zeros in front of a group and none of a zero
run left out, is read and written as the library does. -/

/-- An address and the length of its prefix. -/
structure FullAddress where
  value : ℤ
  mask : ℕ
  value_nonneg : 0 ≤ value
  value_lt : value < 2 ^ 128
  mask_le : mask ≤ 128
deriving DecidableEq

namespace FullAddress

def block (a : FullAddress) : AddressBlock 128 :=
  .around a.value a.mask a.mask_le a.value_nonneg a.value_lt

theorem start_mem (a : FullAddress) : a.block.start ∈ a.block :=
  ⟨le_rfl, by
    have := a.block.size_pos
    rw [AddressBlock.last]
    linarith⟩

theorem last_mem (a : FullAddress) : a.block.last ∈ a.block :=
  ⟨a.start_mem.2, le_rfl⟩

/-- Another address of the subnet, under the same mask. -/
def move (a : FullAddress) (n : ℤ) (h : n ∈ a.block) : FullAddress where
  value := n
  mask := a.mask
  value_nonneg := (AddressBlock.bounds_of_mem h).1
  value_lt := (AddressBlock.bounds_of_mem h).2
  mask_le := a.mask_le

def ofValue (n : ℤ) (mask : ℕ) : Option FullAddress :=
  if h : 0 ≤ n ∧ n < 2 ^ 128 ∧ mask ≤ 128 then some ⟨n, mask, h.1, h.2.1, h.2.2⟩ else none

/-- Eight groups of hexadecimal digits, perhaps a prefix length behind. -/
def read (text : String) : Option FullAddress :=
  match text.toList.splitOn '/' with
  | [groups] =>
      (GroupedText.readGroups 16 (2 ^ 16) 8 ':' groups).bind fun n => ofValue n 128
  | [groups, length] =>
      (GroupedText.readGroups 16 (2 ^ 16) 8 ':' groups).bind fun n =>
        (GroupedText.readNumeral 10 length).bind fun mask => ofValue n mask
  | _ => none

def write (n : ℕ) : List Char := GroupedText.groupText 16 (2 ^ 16) 8 ':' n

/-- What the library throws for any other text. -/
def orThrow (address : Option FullAddress) : Except String FullAddress :=
  match address with
  | some address => .ok address
  | none => .error "Incorrect number of groups found"

def library : Address6Api FullAddress where
  isValid text := (read text).isSome
  new text := orThrow (read text)
  subnetMask a := a.mask
  startAddress a := a.move a.block.start a.start_mem
  endAddress a := a.move a.block.last a.last_mem
  bigInt a := a.value
  fromBigInt n := orThrow (ofValue n 128)
  correctForm a := String.ofList (write a.value.toNat)

theorem slash_not_mem_write (n : ℕ) : '/' ∉ write n :=
  GroupedText.not_mem_groupText (by decide) (by decide) (by decide) (by decide)

theorem readGroups_write {n : ℕ} (h : n < 2 ^ 128) :
    GroupedText.readGroups 16 (2 ^ 16) 8 ':' (write n) = some n :=
  GroupedText.readGroups_groupText (by decide) (by decide) (by decide) (by decide) (by decide)
    (by rwa [← pow_mul])

theorem read_write {n : ℕ} (h : n < 2 ^ 128) :
    read (String.ofList (write n)) = ofValue n 128 := by
  have hsplit : (String.ofList (write n)).toList.splitOn '/' = [write n] := by
    rw [String.toList_ofList, List.splitOn_eq_singleton (slash_not_mem_write n)]
  unfold read
  rw [hsplit]
  dsimp only
  rw [readGroups_write h, Option.bind_some]

theorem read_write_mask {n : ℕ} (mask : ℕ) (h : n < 2 ^ 128) :
    read (String.ofList (write n) ++ "/" ++ toString mask) = ofValue n mask := by
  have hslash : '/' ∉ Nat.toDigits 10 mask :=
    GroupedText.not_mem_toDigits (by decide) (by decide) (by decide)
  have hmask : GroupedText.readNumeral 10 (Nat.toDigits 10 mask) = some mask :=
    GroupedText.readNumeral_toDigits (by decide) (by decide)
  have htext : (String.ofList (write n) ++ "/" ++ toString mask).toList =
      write n ++ '/' :: Nat.toDigits 10 mask := by
    rw [String.toList_append, String.toList_append, String.toList_ofList, Nat.toString_eq_repr,
      Nat.toList_repr, List.append_assoc]
    rfl
  have hsplit : (String.ofList (write n) ++ "/" ++ toString mask).toList.splitOn '/' =
      [write n, Nat.toDigits 10 mask] := by
    rw [htext, List.splitOn_append_cons_self_of_not_mem (slash_not_mem_write n),
      List.splitOn_eq_singleton hslash]
  unfold read
  rw [hsplit]
  dsimp only
  rw [readGroups_write h, hmask, Option.bind_some, Option.bind_some]

theorem ofValue_eq {n : ℤ} {mask : ℕ} (h : 0 ≤ n) (h' : n < 2 ^ 128) (hmask : mask ≤ 128) :
    ofValue n mask = some ⟨n, mask, h, h', hmask⟩ :=
  dif_pos ⟨h, h', hmask⟩

theorem library_opens {text : String} {a : FullAddress} (h : read text = some a) :
    library.Opens text a := by
  constructor
  · show (read text).isSome = true
    rw [h]
    rfl
  · show orThrow (read text) = .ok a
    rw [h]
    rfl

theorem library_denotes {text : String} {a : FullAddress} (h : read text = some a) :
    library.Denotes text a.value a.mask :=
  ⟨a, library_opens h, rfl, rfl⟩

theorem library_textOf {n : ℤ} {a : FullAddress} (h : ofValue n 128 = some a) :
    library.textOf n = .ok (String.ofList (write a.value.toNat)) := by
  have hnew : library.fromBigInt n = .ok a := by
    show orThrow (ofValue n 128) = .ok a
    rw [h]
    rfl
  rw [Address6Api.textOf, hnew]
  rfl

theorem toNat_lt_two_pow {n : ℤ} (h : 0 ≤ n) (h' : n < 2 ^ 128) : n.toNat < 2 ^ 128 :=
  (Int.toNat_lt h).mpr (by exact_mod_cast h')

theorem library_denotes_write {n : ℤ} (h : 0 ≤ n) (h' : n < 2 ^ 128) :
    library.Denotes (String.ofList (write n.toNat)) n 128 := by
  have hread : read (String.ofList (write n.toNat)) = some ⟨n, 128, h, h', le_rfl⟩ := by
    rw [read_write (toNat_lt_two_pow h h'), Int.toNat_of_nonneg h]
    exact ofValue_eq h h' le_rfl
  exact library_denotes hread

theorem library_denotes_write_mask {n : ℤ} {mask : ℕ} (h : 0 ≤ n) (h' : n < 2 ^ 128)
    (hmask : mask ≤ 128) :
    library.Denotes (String.ofList (write n.toNat) ++ "/" ++ toString mask) n mask := by
  have hread : read (String.ofList (write n.toNat) ++ "/" ++ toString mask) =
      some ⟨n, mask, h, h', hmask⟩ := by
    rw [read_write_mask mask (toNat_lt_two_pow h h'), Int.toNat_of_nonneg h]
    exact ofValue_eq h h' hmask
  exact library_denotes hread

/-- What is written for a number is read as that number. -/
theorem library_textOf_reads {n : ℤ} (h : 0 ≤ n) (h' : n < 2 ^ 128) :
    ∃ text, library.textOf n = .ok text ∧ library.Denotes text n 128 ∧
      ∀ mask ≤ 128, library.Denotes (text ++ "/" ++ toString mask) n mask :=
  ⟨_, library_textOf (ofValue_eq h h' le_rfl), library_denotes_write h h',
    fun _ hmask => library_denotes_write_mask h h' hmask⟩

theorem library_lawful : library.Lawful where
  new_of_isValid text h := by
    obtain ⟨a, ha⟩ := Option.isSome_iff_exists.mp h
    exact ⟨a, (library_opens ha).2⟩
  subnetMask_le a := a.mask_le
  bigInt_nonneg a := a.value_nonneg
  bigInt_lt a := a.value_lt
  startAddress _ := rfl
  endAddress _ := rfl
  textOf _ h h' := library_textOf_reads h h'

end FullAddress

/-! ## When the calculator is right -/

/-- What the calculator is for: the address and the subnet drawn may be handed out,
and every offset within the subnet is read back. -/
structure CalculatorCorrect (api : Address6Api Address6) (subnetStr : String) (host : Address6)
    (targetPrefix : ℕ) (draws draws' : Draws) : Prop where
  address : api.Allocates host 128 (generateRandomIPv6 api subnetStr draws)
  subnet : api.subnetMask host < targetPrefix →
    api.Allocates host targetPrefix (generateRandomSubnet api subnetStr targetPrefix draws')
  offset : ∀ offset : IntegerNumber, 0 ≤ offset.val →
    api.bigInt (api.startAddress host) + offset.val + 2 ≤ api.bigInt (api.endAddress host) →
      (calculateIPv6 api subnetStr offset >>= getIPv6Offset api subnetStr) = .ok offset.val

/-- The subnet has an address past the two reserved ones, and the subnet drawn is
none of those that start with a reserved one. -/
theorem ip_allocation_iff (hlaw : api.Lawful) (hopens : api.Opens subnetStr host)
    (hle : targetPrefix ≤ 128) (draws draws' : Draws) :
    CalculatorCorrect api subnetStr host targetPrefix draws draws' ↔
      api.subnetMask host ≤ 126 ∧
        (api.subnetMask host < targetPrefix →
          draws'.Reaches (targetPrefix - api.subnetMask host) (reservedBlocks targetPrefix)) := by
  constructor
  · intro h
    refine ⟨(generateRandomIPv6_allocates_iff hlaw hopens).mp h.address, ?_⟩
    intro hlt
    exact (generateRandomSubnet_allocates_iff hlaw hopens hlt hle).mp (h.subnet hlt)
  · rintro ⟨hmask, hdraw⟩
    constructor
    · exact (generateRandomIPv6_allocates_iff hlaw hopens).mpr hmask
    · intro hlt
      exact (generateRandomSubnet_allocates_iff hlaw hopens hlt hle).mpr (hdraw hlt)
    · intro offset hlow hhigh
      exact getIPv6Offset_calculateIPv6 hlaw hopens hlow hhigh

open FullAddress in
/-- A subnet of 64 bits, its address drawn from the bytes and its part of 112 bits by
`Math.random`. -/
theorem ip_allocation_iff_wide :
    let subnetStr := "2a0a:51c1:9:13b:0:0:0:0/64"
    let draws : Draws := ⟨⟨0x100020003, 48, by decide, by decide⟩, #v[0, 5, 0, 6, 0, 7, 0, 8]⟩
    (∃ host, library.Opens subnetStr host ∧
      CalculatorCorrect library subnetStr host 112 draws draws) ∧
    generateRandomIPv6 library subnetStr draws = .ok "2a0a:51c1:9:13b:5:6:7:a" ∧
    generateRandomSubnet library subnetStr 112 draws = .ok "2a0a:51c1:9:13b:1:2:3:0/112" := by
  intro subnetStr draws
  have hread : read subnetStr =
      some ⟨0x2a0a51c10009013b0000000000000000, 64, by decide, by decide, by decide⟩ := by
    decide +kernel
  refine ⟨⟨_, library_opens hread, ?_⟩, by decide +kernel, by decide +kernel⟩
  exact (ip_allocation_iff library_lawful (library_opens hread) (by decide) draws draws).mpr
    ⟨by decide, fun _ => by decide +kernel⟩

open FullAddress in
/-- The first of the 256 parts of a subnet starts with its `::0`, and a single address
gives another one, outside of it. -/
theorem reserved_address_handed_out :
    let subnetStr := "2a0a:51c1:9:13b:1:2:3:0/112"
    let plain := "2a0a:51c1:9:13b:1:2:3:4"
    let draws : Draws := ⟨⟨0, 0, by decide, by decide⟩, #v[0, 0, 0, 0, 0, 0, 0, 0]⟩
    (∃ host, library.Opens subnetStr host ∧
      generateRandomSubnet library subnetStr 120 draws = .ok "2a0a:51c1:9:13b:1:2:3:0/120" ∧
      ¬ CalculatorCorrect library subnetStr host 120 draws draws) ∧
    (∃ host, library.Opens plain host ∧
      generateRandomIPv6 library plain draws = .ok "2a0a:51c1:9:13b:1:2:3:6" ∧
      isIpv6InSubnet library "2a0a:51c1:9:13b:1:2:3:6" plain = false ∧
      ¬ CalculatorCorrect library plain host 120 draws draws) := by
  intro subnetStr plain draws
  have hread : read subnetStr =
      some ⟨0x2a0a51c10009013b0001000200030000, 112, by decide, by decide, by decide⟩ := by
    decide +kernel
  have hplain : read plain =
      some ⟨0x2a0a51c10009013b0001000200030004, 128, by decide, by decide, by decide⟩ := by
    decide +kernel
  refine ⟨⟨_, library_opens hread, by decide +kernel, ?_⟩,
    ⟨_, library_opens hplain, by decide +kernel, by decide +kernel, ?_⟩⟩
  · intro h
    have hdraw := (generateRandomSubnet_allocates_iff library_lawful (library_opens hread)
      (by decide) (by decide)).mp (h.subnet (by decide))
    exact absurd hdraw (by decide +kernel)
  · intro h
    have hmask := (generateRandomIPv6_allocates_iff library_lawful
      (library_opens hplain)).mp h.address
    exact absurd hmask (by decide)

end Incudal
