import DollarScript.Registry
import Mathlib.Data.List.Induction

/-! Entries are sorted by priority and keep their order within each priority; this leaves one way
to arrange them. -/
namespace DollarScript.Registry

/-- Highest priority first. -/
def Sorted (es : List Entry) : Prop := es.Pairwise fun e f => f.priority ≤ e.priority

/-- The entries of one priority, in their order. -/
def ofPriority (p : Int) (es : List Entry) : List Entry := es.filter fun e => e.priority = p

variable {e : Entry} {es fs : List Entry} {p : Int}

@[simp] theorem ofPriority_nil : ofPriority p [] = [] := rfl

@[simp] theorem ofPriority_append : ofPriority p (es ++ fs) = ofPriority p es ++ ofPriority p fs :=
  List.filter_append ..

theorem ofPriority_cons_of_eq (h : e.priority = p) :
    ofPriority p (e :: es) = e :: ofPriority p es :=
  List.filter_cons_of_pos (by simpa using h)

theorem ofPriority_cons_of_ne (h : e.priority ≠ p) : ofPriority p (e :: es) = ofPriority p es :=
  List.filter_cons_of_neg (by simpa using h)

theorem mem_ofPriority : e ∈ ofPriority p es ↔ e ∈ es ∧ e.priority = p := by
  simp [ofPriority]

theorem insertByPriority_perm (e : Entry) (es : List Entry) :
    (insertByPriority e es).Perm (e :: es) := by
  induction es with
  | nil => exact .refl _
  | cons f es ih =>
    unfold insertByPriority
    split
    · exact .refl _
    · exact (ih.cons f).trans (.swap e f es)

theorem Sorted.insert (e : Entry) (h : Sorted es) : Sorted (insertByPriority e es) := by
  induction es with
  | nil => exact List.pairwise_singleton _ _
  | cons f es ih =>
    obtain ⟨hf, hes⟩ := List.pairwise_cons.mp h
    unfold insertByPriority
    split
    · rename_i hlt
      refine List.pairwise_cons.mpr ⟨?_, h⟩
      intro d hd
      rcases List.mem_cons.mp hd with rfl | hd
      · omega
      · have hle := hf d hd
        omega
    · rename_i hlt
      refine List.pairwise_cons.mpr ⟨?_, ih hes⟩
      intro d hd
      rcases List.mem_cons.mp ((insertByPriority_perm e es).mem_iff.mp hd) with rfl | hd
      · omega
      · exact hf d hd

/-- An entry comes behind all those of its priority. -/
theorem Sorted.ofPriority_insert (h : Sorted es) :
    ofPriority p (insertByPriority e es) = ofPriority p es ++ ofPriority p [e] := by
  induction es with
  | nil => rfl
  | cons f es ih =>
    obtain ⟨hf, hes⟩ := List.pairwise_cons.mp h
    unfold insertByPriority
    split
    · rename_i hlt
      by_cases hp : e.priority = p
      · -- all that follows has a lower priority
        have hnone : ofPriority p (f :: es) = [] := by
          refine List.filter_eq_nil_iff.mpr ?_
          intro d hd
          have hle : d.priority ≤ f.priority := by
            rcases List.mem_cons.mp hd with rfl | hd
            · exact Int.le_refl _
            · exact hf d hd
          simp only [decide_eq_true_eq]
          omega
        rw [ofPriority_cons_of_eq hp, ofPriority_cons_of_eq hp, hnone]
        rfl
      · rw [ofPriority_cons_of_ne hp, ofPriority_cons_of_ne hp, ofPriority_nil, List.append_nil]
    · by_cases hp : f.priority = p
      · rw [ofPriority_cons_of_eq hp, ofPriority_cons_of_eq hp, ih hes, List.cons_append]
      · rw [ofPriority_cons_of_ne hp, ofPriority_cons_of_ne hp, ih hes]

theorem sortByPriority_concat (es : List Entry) (e : Entry) :
    sortByPriority (es ++ [e]) = insertByPriority e (sortByPriority es) := by
  simp [sortByPriority]

theorem sortByPriority_perm (es : List Entry) : (sortByPriority es).Perm es := by
  induction es using List.reverseRecOn with
  | nil => exact .refl _
  | append_singleton es e ih =>
    rw [sortByPriority_concat]
    have hinsert := (insertByPriority_perm e _).trans (ih.cons e)
    exact hinsert.trans (List.perm_append_singleton e es).symm

theorem sortByPriority_sorted (es : List Entry) : Sorted (sortByPriority es) := by
  induction es using List.reverseRecOn with
  | nil => exact List.Pairwise.nil
  | append_singleton es e ih =>
    rw [sortByPriority_concat]
    exact ih.insert e

theorem ofPriority_sortByPriority (p : Int) (es : List Entry) :
    ofPriority p (sortByPriority es) = ofPriority p es := by
  induction es using List.reverseRecOn with
  | nil => rfl
  | append_singleton es e ih =>
    rw [sortByPriority_concat, (sortByPriority_sorted es).ofPriority_insert, ih, ofPriority_append]

theorem Sorted.le_head {f : Entry} (h : Sorted (e :: es)) (hf : f ∈ e :: es) :
    f.priority ≤ e.priority := by
  rcases List.mem_cons.mp hf with rfl | hf
  · exact Int.le_refl _
  · exact (List.pairwise_cons.mp h).1 f hf

theorem mem_of_ofPriority (h : ∀ p, ofPriority p es = ofPriority p fs) (he : e ∈ es) : e ∈ fs := by
  have hmem : e ∈ ofPriority e.priority es := mem_ofPriority.mpr ⟨he, rfl⟩
  rw [h] at hmem
  exact (mem_ofPriority.mp hmem).1

/-- What is sorted is determined by the entries of each priority. -/
theorem Sorted.eq_of_ofPriority (h : Sorted es) (h' : Sorted fs)
    (heq : ∀ p, ofPriority p es = ofPriority p fs) : es = fs := by
  induction es generalizing fs with
  | nil =>
    refine (List.eq_nil_iff_forall_not_mem.mpr fun f hf => ?_).symm
    exact absurd (mem_of_ofPriority (fun p => (heq p).symm) hf) List.not_mem_nil
  | cons e es ih =>
    cases fs with
    | nil => exact absurd (mem_of_ofPriority heq List.mem_cons_self) List.not_mem_nil
    | cons f fs =>
      have hle := h'.le_head (mem_of_ofPriority heq List.mem_cons_self)
      have hge := h.le_head (mem_of_ofPriority (fun p => (heq p).symm) List.mem_cons_self)
      have hsame : f.priority = e.priority := Int.le_antisymm hge hle
      have hhead := heq e.priority
      rw [ofPriority_cons_of_eq rfl, ofPriority_cons_of_eq hsame] at hhead
      obtain ⟨rfl, htail⟩ := List.cons.inj hhead
      rw [ih (List.pairwise_cons.mp h).2 (List.pairwise_cons.mp h').2]
      intro p
      by_cases hp : e.priority = p
      · rw [← hp]
        exact htail
      · have htail := heq p
        rwa [ofPriority_cons_of_ne hp, ofPriority_cons_of_ne hp] at htail

theorem Sorted.sortByPriority_eq (h : Sorted es) : sortByPriority es = es :=
  (sortByPriority_sorted es).eq_of_ofPriority h fun p => ofPriority_sortByPriority p es

theorem ofPriority_sorted (p : Int) (es : List Entry) : Sorted (ofPriority p es) := by
  refine List.pairwise_of_forall_mem_list ?_
  intro e he f hf
  exact Int.le_of_eq ((mem_ofPriority.mp hf).2.trans (mem_ofPriority.mp he).2.symm)

end DollarScript.Registry
