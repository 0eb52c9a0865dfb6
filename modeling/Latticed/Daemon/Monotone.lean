import Latticed.Daemon.Plan
import Mathlib.Data.List.GetD

/-!
# Asking the planner for less

When no allocation fits, the error asks the user to reduce the context, to use a smaller quantization or
to change workers.  With less to place and more memory to place it in, an allocation that fitted still
fits.

* `budget_mono` : a GPU with more memory and a smaller reserve has a larger budget.
* `Fits.mono` : an allocation that fits goes on fitting.
* `build_mono` : so `build` goes on returning plans.
-/

namespace Latticed

namespace Daemon

open Engine Net Rust

/-- What the planner is asked for. -/
structure Demand where
  inventory : ModelInventory
  context : UInt32
  devices : List GpuDevice
  reserve : UInt64

/-- The second demand has the dimensions of the first, is for no smaller GPUs, and needs no more of
them. -/
structure Demand.Eases (a b : Demand) : Prop where
  layers : b.inventory.facts.layers = a.inventory.facts.layers
  hiddenDim : b.inventory.facts.hiddenDim = a.inventory.facts.hiddenDim
  heads : b.inventory.facts.heads = a.inventory.facts.heads
  kvHeads : b.inventory.facts.kvHeads = a.inventory.facts.kvHeads
  devices : List.Forall₂ (fun d d' => d.freeMemory ≤ d'.freeMemory ∧ d.totalMemory ≤ d'.totalMemory)
    a.devices b.devices
  reserve : b.reserve ≤ a.reserve
  context : b.context ≤ a.context
  layerBytes : List.Forall₂ (fun n n' => n' ≤ n) a.inventory.layerBytes b.inventory.layerBytes
  outputBytes : b.inventory.outputBytes ≤ a.inventory.outputBytes

variable {a b : Demand}

/-- **More memory and a smaller reserve make a larger budget.** -/
theorem budget_mono {reserve reserve' : UInt64} {device device' : GpuDevice}
    (hreserve : reserve' ≤ reserve) (hfree : device.freeMemory ≤ device'.freeMemory)
    (htotal : device.totalMemory ≤ device'.totalMemory) :
    budget reserve device ≤ budget reserve' device' := by
  rw [UInt64.le_iff_toNat_le] at hreserve hfree htotal
  -- of what is free at most a tenth more is kept back, and all of it is gained
  have hmin : min device.freeMemory.toNat device.totalMemory.toNat ≤
      min device'.freeMemory.toNat device'.totalMemory.toNat := min_le_min hfree htotal
  simp only [budget]
  omega

theorem kvCharge_mono (h : a.Eases b) :
    kvCharge b.inventory.facts b.context ≤ kvCharge a.inventory.facts a.context := by
  have hcontext := UInt32.le_iff_toNat_le.1 h.context
  simp only [kvCharge, h.hiddenDim, h.heads, h.kvHeads]
  gcongr

theorem layerCharge_mono (h : a.Eases b) (l : ℕ) :
    layerCharge b.inventory b.context l ≤ layerCharge a.inventory a.context l := by
  have hkv := kvCharge_mono h
  have hlen := h.layerBytes.length_eq
  have hbytes : (b.inventory.layerBytes.getD l 0).toNat ≤ (a.inventory.layerBytes.getD l 0).toNat := by
    by_cases hl : l < a.inventory.layerBytes.length
    · rw [List.getD_eq_getElem _ _ hl, List.getD_eq_getElem _ _ (hlen ▸ hl)]
      exact UInt64.le_iff_toNat_le.1 (h.layerBytes.get hl (hlen ▸ hl))
    · rw [List.getD_eq_default _ _ (by omega), List.getD_eq_default _ _ (by omega)]
  unfold layerCharge
  omega

/-- **An allocation that fits goes on fitting.** -/
theorem Fits.mono (h : a.Eases b) {sizes : List ℕ}
    (hfits : Fits a.inventory a.context a.devices a.reserve sizes) :
    Fits b.inventory b.context b.devices b.reserve sizes := by
  have hlen := h.devices.length_eq
  refine ⟨hfits.length_eq.trans hlen, hfits.pos, h.layers ▸ hfits.sum_eq, ?_⟩
  intro i device' hdevice'
  obtain ⟨hi', rfl⟩ := List.getElem?_eq_some_iff.1 hdevice'
  have hi : i < a.devices.length := hlen ▸ hi'
  obtain ⟨hfree, htotal⟩ := h.devices.get hi hi'
  have hold := hfits.fits i a.devices[i] (List.getElem?_eq_getElem hi)
  have hbudget := budget_mono h.reserve hfree htotal
  simp only [budget, List.get_eq_getElem] at hbudget
  have hsum : ∑ l ∈ Finset.Ico (sizes.take i).sum (sizes.take (i + 1)).sum,
        layerCharge b.inventory b.context l ≤
      ∑ l ∈ Finset.Ico (sizes.take i).sum (sizes.take (i + 1)).sum,
        layerCharge a.inventory a.context l :=
    Finset.sum_le_sum fun l _ => layerCharge_mono h l
  have houtput := UInt64.le_iff_toNat_le.1 h.outputBytes
  rw [← hlen]
  split_ifs at hold ⊢ <;> omega

theorem unsupported_eases (h : a.Eases b) : unsupported b.inventory = unsupported a.inventory := by
  simp only [unsupported, h.layers, h.hiddenDim, h.heads, h.kvHeads, h.layerBytes.length_eq]

variable {F F' : Type*}

/-- **The planner is monotone**: what `build` plans, it plans for every demand that asks for less. -/
theorem build_mono (fl : F64 F) (fl' : F64 F') (h : a.Eases b) {plan : Plan}
    (hok : build fl a.inventory a.context a.devices a.reserve = .ok plan) :
    ∃ plan', build fl' b.inventory b.context b.devices b.reserve = .ok plan' := by
  obtain ⟨hu, hpos, hcount⟩ := build_early fl (by rw [hok]; rintro ⟨e, ⟨⟩⟩)
  have hfits := (build_sound fl hok).2
  refine (build_complete fl' b.inventory b.context b.devices b.reserve).1 ?_ ?_ ?_ ⟨_, hfits.mono h⟩
  · rw [unsupported_eases h, hu]
  · rwa [← h.devices.length_eq]
  · rwa [← h.devices.length_eq, h.layers]

/-- The uneven model on two GPUs, and the same with smaller layers on larger GPUs. -/
theorem build_mono_uneven :
    ∃ plan, build F64.exact { unevenModel with layerBytes := [700, 100, 50] } 0
      [gpu 900, gpu 400] 0 = .ok plan := by
  have hok : build F64.exact unevenModel 0 [gpu 900, gpu 300] 0 = .ok ⟨[1, 3]⟩ := by decide
  have heases : Demand.Eases ⟨unevenModel, 0, [gpu 900, gpu 300], 0⟩
      ⟨{ unevenModel with layerBytes := [700, 100, 50] }, 0, [gpu 900, gpu 400], 0⟩ :=
    ⟨rfl, rfl, rfl, rfl, by simp [gpu], by decide, by decide, by simp [unevenModel], by decide⟩
  exact build_mono F64.exact F64.exact heases hok

end Daemon

end Latticed
