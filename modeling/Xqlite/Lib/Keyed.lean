import Mathlib.Data.List.Nodup
import Mathlib.Data.List.Perm.Basic
set_option autoImplicit false

namespace Keyed

variable {κ α : Type*}

theorem nodup_snoc {entries : List (κ × α)} {k : κ} {a : α}
    (h : (entries.map Prod.fst).Nodup) (hk : ∀ e ∈ entries, e.1 ≠ k) :
    ((entries ++ [(k,a)]).map Prod.fst).Nodup := by
  simp only [List.map_append,List.map_cons,List.map_nil]
  refine List.nodup_append.mpr ⟨h,List.nodup_singleton _,?_⟩
  intro x hx y hy
  obtain ⟨e,he,rfl⟩ := List.mem_map.mp hx
  rw [List.mem_singleton.mp hy]
  exact hk e he

theorem eq_of_fst_eq {entries : List (κ × α)} (h : (entries.map Prod.fst).Nodup)
    {x y : κ × α} (hx : x ∈ entries) (hy : y ∈ entries) (hk : x.1 = y.1) : x = y :=
  List.inj_on_of_nodup_map h hx hy hk

section Key
variable [DecidableEq κ] {β : Type*} {key : α → κ}

theorem find?_key {l : List α} (h : (l.map key).Nodup) {a : α} (ha : a ∈ l) :
    l.find? (fun b => key b = key a) = some a := by
  cases hf : l.find? (fun b => key b = key a) with
  | none =>
    have hno := List.find?_eq_none.mp hf a ha
    simp at hno
  | some b =>
    have hkey : key b = key a := by simpa using List.find?_some hf
    rw [List.inj_on_of_nodup_map h (List.mem_of_find?_eq_some hf) ha hkey]

theorem filter_flatMap_key {of : β → κ} {f : α → List β} (hf : ∀ a, ∀ b ∈ f a, of b = key a)
    {l : List α} (h : (l.map key).Nodup) {a : α} (ha : a ∈ l) :
    (l.flatMap f).filter (fun b => of b = key a) = f a := by
  induction l with
  | nil => cases ha
  | cons c l ih =>
    rw [List.map_cons,List.nodup_cons] at h
    rw [List.flatMap_cons,List.filter_append]
    rcases List.mem_cons.mp ha with rfl | ha
    · have hself : (f a).filter (fun b => of b = key a) = f a := by
        refine List.filter_eq_self.mpr ?_
        intro b hb
        simpa using hf a b hb
      have hrest : (l.flatMap f).filter (fun b => of b = key a) = [] := by
        refine List.filter_eq_nil_iff.mpr ?_
        intro b hb
        obtain ⟨d,hd,hb⟩ := List.mem_flatMap.mp hb
        have hne : key d ≠ key a := fun heq => h.1 (heq ▸ List.mem_map_of_mem hd)
        simpa [hf d b hb] using hne
      rw [hself,hrest,List.append_nil]
    · have hc : key c ≠ key a := fun heq => h.1 (heq ▸ List.mem_map_of_mem ha)
      have hnone : (f c).filter (fun b => of b = key a) = [] := by
        refine List.filter_eq_nil_iff.mpr ?_
        intro b hb
        simpa [hf c b hb] using hc
      rw [hnone,ih h.2 ha,List.nil_append]

theorem perm_flatMap_iff (key : α → κ) (of : β → κ) {f g : α → List β}
    (hf : ∀ a, ∀ b ∈ f a, of b = key a) (hg : ∀ a, ∀ b ∈ g a, of b = key a) {l : List α}
    (h : (l.map key).Nodup) :
    (l.flatMap f).Perm (l.flatMap g) ↔ ∀ a ∈ l, (f a).Perm (g a) := by
  constructor
  · intro hperm a ha
    have hsorted := hperm.filter fun b => of b = key a
    rwa [filter_flatMap_key hf h ha,filter_flatMap_key hg h ha] at hsorted
  · exact List.Perm.flatMap_left l

end Key

end Keyed
