import Mathlib.Data.List.Basic
set_option autoImplicit false

namespace Slices

variable {α : Type*} {l data : List α} {offset start stop : Nat}

/-- `data` in place of what stands at `offset`. -/
def splice (l : List α) (offset : Nat) (data : List α) : List α :=
  l.take offset ++ (data ++ l.drop (offset+data.length))

theorem getElem?_extract (l : List α) (start stop i : Nat) :
    (l.extract start stop)[i]? = if start+i < stop then l[start+i]? else none := by
  rw [List.extract_eq_take_drop,List.getElem?_take,List.getElem?_drop]
  by_cases h : start+i < stop
  · rw [if_pos h,if_pos (by omega)]
  · rw [if_neg h,if_neg (by omega)]

theorem extract_eq_nil (h : stop ≤ start) : l.extract start stop = [] := by
  rw [List.extract_eq_take_drop,Nat.sub_eq_zero_of_le h,List.take_zero]

theorem getElem?_splice (h : offset+data.length ≤ l.length) (i : Nat) :
    (splice l offset data)[i]? =
      if i < offset ∨ offset+data.length ≤ i then l[i]? else data[i-offset]? := by
  have hfront : (l.take offset).length = offset := List.length_take_of_le (by omega)
  rw [splice,List.getElem?_append,hfront,List.getElem?_append,List.getElem?_drop]
  by_cases hbefore : i < offset
  · rw [if_pos hbefore,if_pos (.inl hbefore),List.getElem?_take_of_lt hbefore]
  · rw [if_neg hbefore]
    by_cases hinside : i-offset < data.length
    · rw [if_pos hinside,if_neg (by omega)]
    · have hindex : offset+data.length+(i-offset-data.length) = i := by omega
      rw [if_neg hinside,if_pos (by omega),hindex]

theorem length_splice (h : offset+data.length ≤ l.length) :
    (splice l offset data).length = l.length := by
  simp only [splice,List.length_append,List.length_take,List.length_drop]
  omega

theorem extract_splice_self (h : offset+data.length ≤ l.length) :
    (splice l offset data).extract offset (offset+data.length) = data := by
  refine List.ext_getElem? (fun i => ?_)
  rw [getElem?_extract,getElem?_splice h]
  by_cases hi : i < data.length
  · rw [if_pos (by omega),if_neg (by omega),Nat.add_sub_cancel_left]
  · rw [if_neg (by omega),List.getElem?_eq_none (by omega)]

theorem extract_splice_disjoint (h : offset+data.length ≤ l.length)
    (hdisjoint : stop ≤ offset ∨ offset+data.length ≤ start) :
    (splice l offset data).extract start stop = l.extract start stop := by
  refine List.ext_getElem? (fun i => ?_)
  rw [getElem?_extract,getElem?_extract,getElem?_splice h]
  by_cases hi : start+i < stop
  · rw [if_pos hi,if_pos hi,if_pos (by omega)]
  · rw [if_neg hi,if_neg hi]

end Slices
