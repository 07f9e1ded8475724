/-
# `HostResources` — the resource counters of a host

A host row counts the CPU, memory, disk and NAT ports that its instances have
reserved.  Amounts of the four are added and compared componentwise; a release
checks that every counter is at least what it gives back, so that none becomes
negative.
-/
import Incudal.Basic
import Mathlib.Algebra.Order.BigOperators.Group.List
import Mathlib.Algebra.Order.Group.Int
import Mathlib.Logic.Function.Basic

namespace Incudal

/-- Amounts of the four resources: CPU in per cent, memory and disk in MB. -/
@[ext] structure Resources where
  cpu : ℤ
  memory : ℤ
  disk : ℤ
  portCount : ℤ := 0
deriving DecidableEq, Repr

namespace Resources

instance : Zero Resources := ⟨⟨0, 0, 0, 0⟩⟩

instance : Add Resources :=
  ⟨fun r s => ⟨r.cpu + s.cpu, r.memory + s.memory, r.disk + s.disk, r.portCount + s.portCount⟩⟩

instance : Neg Resources := ⟨fun r => ⟨-r.cpu, -r.memory, -r.disk, -r.portCount⟩⟩

instance : Sub Resources :=
  ⟨fun r s => ⟨r.cpu - s.cpu, r.memory - s.memory, r.disk - s.disk, r.portCount - s.portCount⟩⟩

instance : LE Resources :=
  ⟨fun r s => r.cpu ≤ s.cpu ∧ r.memory ≤ s.memory ∧ r.disk ≤ s.disk ∧ r.portCount ≤ s.portCount⟩

instance (r s : Resources) : Decidable (r ≤ s) :=
  inferInstanceAs
    (Decidable (r.cpu ≤ s.cpu ∧ r.memory ≤ s.memory ∧ r.disk ≤ s.disk ∧ r.portCount ≤ s.portCount))

variable (r s : Resources)

@[simp] theorem cpu_zero : (0 : Resources).cpu = 0 := rfl
@[simp] theorem memory_zero : (0 : Resources).memory = 0 := rfl
@[simp] theorem disk_zero : (0 : Resources).disk = 0 := rfl
@[simp] theorem portCount_zero : (0 : Resources).portCount = 0 := rfl

@[simp] theorem cpu_add : (r + s).cpu = r.cpu + s.cpu := rfl
@[simp] theorem memory_add : (r + s).memory = r.memory + s.memory := rfl
@[simp] theorem disk_add : (r + s).disk = r.disk + s.disk := rfl
@[simp] theorem portCount_add : (r + s).portCount = r.portCount + s.portCount := rfl

@[simp] theorem cpu_neg : (-r).cpu = -r.cpu := rfl
@[simp] theorem memory_neg : (-r).memory = -r.memory := rfl
@[simp] theorem disk_neg : (-r).disk = -r.disk := rfl
@[simp] theorem portCount_neg : (-r).portCount = -r.portCount := rfl

@[simp] theorem cpu_sub : (r - s).cpu = r.cpu - s.cpu := rfl
@[simp] theorem memory_sub : (r - s).memory = r.memory - s.memory := rfl
@[simp] theorem disk_sub : (r - s).disk = r.disk - s.disk := rfl
@[simp] theorem portCount_sub : (r - s).portCount = r.portCount - s.portCount := rfl

theorem le_def :
    r ≤ s ↔ r.cpu ≤ s.cpu ∧ r.memory ≤ s.memory ∧ r.disk ≤ s.disk ∧ r.portCount ≤ s.portCount :=
  Iff.rfl

instance : AddCommGroup Resources where
  add_assoc r s t := by ext <;> simp <;> omega
  zero_add r := by ext <;> simp
  add_zero r := by ext <;> simp
  add_comm r s := by ext <;> simp <;> omega
  neg_add_cancel r := by ext <;> simp
  sub_eq_add_neg r s := by ext <;> simp <;> omega
  nsmul := nsmulRec
  zsmul := zsmulRec

instance : PartialOrder Resources where
  le_refl r := by simp [le_def]
  le_trans r s t h h' := by simp only [le_def] at *; omega
  le_antisymm r s h h' := by simp only [le_def] at h h'; ext <;> omega

instance : IsOrderedAddMonoid Resources where
  add_le_add_left r s h t := by
    simp only [le_def, cpu_add, memory_add, disk_add, portCount_add] at *
    omega

/-- The first amount that is no natural number, with its name. -/
def invalidAmount (r : Resources) : Option (String × ℤ) :=
  [("cpu", r.cpu), ("memory", r.memory), ("disk", r.disk), ("portCount", r.portCount)].find?
    fun entry => decide (entry.2 < 0)

theorem invalidAmount_eq_none_iff : r.invalidAmount = none ↔ 0 ≤ r := by
  simp [invalidAmount, le_def]

/-- The counters cover the amounts; ports are looked at only if some are given back. -/
def coveredBy (r used : Resources) : Bool :=
  decide (r.cpu ≤ used.cpu ∧ r.memory ≤ used.memory ∧ r.disk ≤ used.disk
    ∧ (0 < r.portCount → r.portCount ≤ used.portCount))

end Resources

/-- The columns of a host that a reservation reads. -/
structure HostCapacity where
  cpuAllowanceMax : Option ℤ
  memoryMax : Option ℤ
  /-- in GB -/
  storageSize : Option ℤ := none
  natPortStart : Option ℤ := none
  natPortEnd : Option ℤ := none
  /-- storage pools whose purpose is `instance_data` -/
  instanceDataPoolCount : ℕ := 1
  /-- `cpuUsed`, `memoryUsed`, `diskUsed` and `natPortsUsedCount` -/
  used : Resources := 0
deriving DecidableEq, Repr

/-- The counters of all hosts. -/
abbrev HostTable := ℕ → Option HostCapacity

/-- An instance and what it has reserved on its host. -/
structure Reservation where
  instanceId : ℕ
  hostId : ℕ
  resources : Resources

/-- A port bound that is set: `null` and 0 are not. -/
def portBound (port : Option ℤ) : Option ℤ := port.filter (· ≠ 0)

/-- The NAT ports of a host: none unless both ends of the range are set. -/
def HostCapacity.natPortsTotal (host : HostCapacity) : ℤ :=
  match portBound host.natPortStart, portBound host.natPortEnd with
  | some first, some last => last - first + 1
  | _, _ => 0

def HostCapacity.withUsed (host : HostCapacity) (used : Resources) : HostCapacity :=
  { host with used }

/-- `decrementHostResourceCounters`. -/
def decrementHostResourceCounters (hosts : HostTable) (hostId : ℕ) (amounts : Resources) :
    Except String HostTable :=
  match amounts.invalidAmount with
  | some (name, value) => .error s!"Invalid {name} resource rollback amount: {value}"
  | none =>
      match hosts hostId with
      | none => .error s!"Host {hostId} not found while releasing resources"
      | some host =>
          if amounts.coveredBy host.used then
            .ok (Function.update hosts hostId (some (host.withUsed (host.used - amounts))))
          else .error s!"Host {hostId} counters are lower than the requested resource rollback"

/-- `reserveHostResources`. -/
def reserveHostResources (hosts : HostTable) (hostId : ℕ) (amounts : Resources) :
    Except String HostTable :=
  match hosts hostId with
  | none => .error "Host not found"
  | some host =>
      let cpuLimit := host.cpuAllowanceMax.getD 0
      let memoryLimit := host.memoryMax.getD 0
      let cpu := host.used.cpu + amounts.cpu
      let memory := host.used.memory + amounts.memory
      let ports := host.used.portCount + amounts.portCount
      if host.instanceDataPoolCount = 0 then
        .error "STORAGE_POOL_NOT_CONFIGURED: 宿主机尚未创建可用的系统盘存储池"
      else if 0 < cpuLimit ∧ cpuLimit < cpu then .error s!"Host CPU exceeded: {cpu}/{cpuLimit}"
      else if 0 < memoryLimit ∧ memoryLimit < memory then
        .error s!"Host memory exceeded: {memory}/{memoryLimit}"
      else if 0 < amounts.portCount ∧ host.natPortsTotal < ports then
        .error s!"Host ports exceeded: {ports}/{host.natPortsTotal}"
      else
        .ok (Function.update hosts hostId (some (host.withUsed
          ⟨cpu, memory, host.used.disk + amounts.disk,
            if 0 < amounts.portCount then ports else host.used.portCount⟩)))

/-! ## What they do -/

section

variable {hosts hosts' : HostTable} {hostId : ℕ} {amounts : Resources}

/-- A reservation adds its amounts to the counters of the host. -/
theorem reserveHostResources_eq (h : reserveHostResources hosts hostId amounts = .ok hosts')
    (hports : 0 ≤ amounts.portCount) :
    ∃ host, hosts hostId = some host ∧
      hosts' = Function.update hosts hostId (some (host.withUsed (host.used + amounts))) := by
  simp only [reserveHostResources] at h
  split at h
  · cases h
  rename_i host hhost
  have hsum : (⟨host.used.cpu + amounts.cpu, host.used.memory + amounts.memory,
      host.used.disk + amounts.disk,
      if 0 < amounts.portCount then host.used.portCount + amounts.portCount
      else host.used.portCount⟩ : Resources) = host.used + amounts := by
    ext <;> simp only [Resources.cpu_add, Resources.memory_add, Resources.disk_add,
      Resources.portCount_add]
    split <;> omega
  rw [hsum] at h
  refine ⟨host, hhost, ?_⟩
  split_ifs at h
  exact (Except.ok.inj h).symm

theorem Resources.coveredBy_of_le {used : Resources} (h : amounts ≤ used) :
    amounts.coveredBy used = true := by
  obtain ⟨hcpu, hmemory, hdisk, hports⟩ := h
  simp [coveredBy, hcpu, hmemory, hdisk, hports]

/-- A release succeeds if the counters are at least the amounts. -/
theorem decrementHostResourceCounters_ok {host : HostCapacity} (hhost : hosts hostId = some host)
    (h0 : 0 ≤ amounts) (hle : amounts ≤ host.used) :
    decrementHostResourceCounters hosts hostId amounts
      = .ok (Function.update hosts hostId (some (host.withUsed (host.used - amounts)))) := by
  simp [decrementHostResourceCounters, amounts.invalidAmount_eq_none_iff.mpr h0, hhost,
    Resources.coveredBy_of_le hle]

end

end Incudal
