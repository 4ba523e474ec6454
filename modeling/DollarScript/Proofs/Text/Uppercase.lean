import DollarScript.Kind
import Mathlib.Data.List.Basic

/-! Upper case is stable: what is in upper case has itself as its upper case. -/
namespace DollarScript.Text

/-- The set of some numbers, as the bits of one number. -/
def bits (ns : List Nat) : Nat := ns.foldr (fun n set => 1 <<< n ||| set) 0

theorem testBit_bits (ns : List Nat) (n : Nat) : (bits ns).testBit n = true ↔ n ∈ ns := by
  induction ns with
  | nil => simp [bits]
  | cons m ns ih =>
    have hcons : bits (m :: ns) = 1 <<< m ||| bits ns := rfl
    rw [hcons, Nat.testBit_or, Nat.one_shiftLeft, Nat.testBit_two_pow, Bool.or_eq_true, ih,
      decide_eq_true_eq, List.mem_cons, eq_comm]

theorem not_mem_of_bits {ms ns : List Nat} (h : bits ms &&& bits ns = 0) {n : Nat} (hn : n ∈ ms) :
    n ∉ ns := by
  intro hn'
  have hboth : (bits ms &&& bits ns).testBit n = true := by
    rw [Nat.testBit_and, (testBit_bits ms n).mpr hn, (testBit_bits ns n).mpr hn', Bool.and_true]
  rw [h, Nat.zero_testBit] at hboth
  cases hboth

namespace Stride

/-- The distances of the letters from the first. -/
def offsets (s : Stride) : List Nat :=
  (List.range (s.last - s.first + 1)).filter fun k => k % s.step = 0

def letters (s : Stride) : List Nat := s.offsets.map (s.first + ·)

def images (s : Stride) : List Nat := s.offsets.map (s.image + ·)

theorem mem_of_send? {s : Stride} {n m : Nat} (h : s.send? n = some m) :
    n ∈ s.letters ∧ m ∈ s.images := by
  unfold send? at h
  split at h
  · rename_i hn
    cases h
    have hoffset : n - s.first ∈ s.offsets := by
      rw [offsets, List.mem_filter, List.mem_range, decide_eq_true_eq]
      exact ⟨by omega, hn.2.2⟩
    exact ⟨List.mem_map.mpr ⟨_, hoffset, by omega⟩, List.mem_map_of_mem hoffset⟩
  · cases h

end Stride

namespace Uppercase

/-- The letters that are not in upper case. -/
def letters : List Nat := strides.flatMap Stride.letters ++ expansions.map Prod.fst

/-- What these letters become. -/
def images : List Nat := strides.flatMap Stride.images ++ expansions.flatMap Prod.snd

theorem images_not_letters {n : Nat} (h : n ∈ images) : n ∉ letters :=
  not_mem_of_bits (by decide +kernel) h

end Uppercase

open Uppercase

theorem upperChar_of_not_letter {c : Char} (h : c.toNat ∉ letters) : upperChar c = [c] := by
  rw [letters, List.mem_append, not_or] at h
  have hstrides : strides.findSome? (·.send? c.toNat) = none := by
    rw [List.findSome?_eq_none_iff]
    intro s hs
    cases hsend : s.send? c.toNat with
    | none => rfl
    | some m => exact absurd (List.mem_flatMap.mpr ⟨s, hs, (Stride.mem_of_send? hsend).1⟩) h.1
  have hexpansions : expansions.lookup c.toNat = none := by
    rw [List.lookup_eq_none_iff]
    intro p hp
    rw [bne_iff_ne]
    intro heq
    exact h.2 (heq ▸ List.mem_map_of_mem hp)
  simp only [upperChar, hstrides, hexpansions]

/-- A number that is no character is taken for the character 0. -/
theorem upperChar_of_image {n : Nat} (h : n ∈ images) :
    upperChar (Char.ofNat n) = [Char.ofNat n] := by
  apply upperChar_of_not_letter
  by_cases hvalid : n.isValidChar
  · have hn : (Char.ofNat n).toNat = n := by
      rw [Char.ofNat, dif_pos hvalid]
      rfl
    rw [hn]
    exact images_not_letters h
  · have hzero : Char.ofNat n = Char.ofNat 0 := dif_neg hvalid
    rw [hzero]
    decide +kernel

theorem upperChar_of_mem {c d : Char} (h : d ∈ upperChar c) : upperChar d = [d] := by
  cases hstride : strides.findSome? (·.send? c.toNat) with
  | some n =>
    obtain ⟨s, hs, hsend⟩ := List.exists_of_findSome?_eq_some hstride
    simp only [upperChar, hstride, List.mem_singleton] at h
    rw [h]
    apply upperChar_of_image
    exact List.mem_append_left _ (List.mem_flatMap.mpr ⟨s, hs, (Stride.mem_of_send? hsend).2⟩)
  | none =>
    cases hlookup : expansions.lookup c.toNat with
    | some ns =>
      simp only [upperChar, hstride, hlookup, List.mem_map] at h
      obtain ⟨n, hn, rfl⟩ := h
      obtain ⟨front, back, heq, -⟩ := List.lookup_eq_some_iff.mp hlookup
      have hmem : (c.toNat, ns) ∈ expansions := by
        rw [heq]
        exact List.mem_append_right _ List.mem_cons_self
      apply upperChar_of_image
      exact List.mem_append_right _ (List.mem_flatMap.mpr ⟨_, hmem, hn⟩)
    | none =>
      have hsame : upperChar c = [c] := by
        simp only [upperChar, hstride, hlookup]
      rw [hsame, List.mem_singleton] at h
      rwa [h]

theorem upper_upper (s : String) : upper (upper s) = upper s := by
  unfold upper
  rw [String.toList_ofList, List.flatMap_assoc]
  congr 1
  apply List.flatMap_congr
  intro c _
  rw [List.flatMap_congr fun d hd => upperChar_of_mem hd]
  exact List.flatMap_singleton' _

end DollarScript.Text

/-- A kind is its own canonical name. -/
theorem DollarScript.Kind.canonical_canonical (name : String) :
    canonical (canonical name) = canonical name :=
  Text.upper_upper name
