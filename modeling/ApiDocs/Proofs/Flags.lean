import ApiDocs.Flags

/-!
# Sets of bits

* `NameFlags.overlaps_or`: a union overlaps what one of its sides overlaps;
* `NameFlags.isVisible_or`: what carries no visibility has no say in what is visible;
* `NameFlags.isVisible_allVisibilities`: all visibilities show everything;
* `NameFlags.isVisible_iff`: what is visible, bit by bit;
* `NameFlags.isVisible_mono`: more visibilities show more.
-/

namespace ApiDocs.NameFlags

theorem overlaps_or (f g h : NameFlags) : (f ||| g).overlaps h = (f.overlaps h || g.overlaps h) := by
  show ((f.bits ||| g.bits) &&& h.bits != 0) = _
  rw [Nat.and_or_distrib_right, overlaps, overlaps, Bool.eq_iff_iff, Bool.or_eq_true, bne_iff_ne,
    bne_iff_ne, bne_iff_ne, Ne, Nat.or_eq_zero_iff, Classical.not_and_iff_not_or_not]

theorem overlaps_or_left {f h : NameFlags} (hf : f.overlaps h = true) (g : NameFlags) :
    (f ||| g).overlaps h = true := by
  rw [overlaps_or, hf, Bool.true_or]

theorem overlaps_or_right {g h : NameFlags} (hg : g.overlaps h = true) (f : NameFlags) :
    (f ||| g).overlaps h = true := by
  rw [overlaps_or, hg, Bool.or_true]

theorem overlaps_comm (f g : NameFlags) : f.overlaps g = g.overlaps f := by
  rw [overlaps, overlaps, Nat.and_comm]

/-- What is callable is a method or a constructor. -/
theorem overlaps_callable (f : NameFlags) :
    f.overlaps .callable = (f.overlaps .methodBit || f.overlaps .anyConstructor) := by
  have hunion : callable = methodBit ||| anyConstructor := by decide
  rw [hunion, overlaps_comm, overlaps_or, overlaps_comm, overlaps_comm anyConstructor]

theorem isVisible_allVisibilities (f : NameFlags) : f.isVisible .allVisibilities = true := by
  rw [isVisible, overlaps, Nat.and_assoc, Nat.and_self]
  exact Bool.not_or_self _

/-- What carries no visibility has no say in what is visible. -/
theorem isVisible_or {f : NameFlags} (h : f.overlaps .allVisibilities = false) (g v : NameFlags) :
    (f ||| g).isVisible v = g.isVisible v := by
  have hbits : (f ||| g).bits &&& allVisibilities.bits = g.bits &&& allVisibilities.bits := by
    show (f.bits ||| g.bits) &&& allVisibilities.bits = _
    rw [Nat.and_or_distrib_right, bne_eq_false_iff_eq.mp h, Nat.zero_or]
  rw [isVisible, isVisible, overlaps, overlaps, hbits]

/-! ## Bit by bit -/

theorem overlaps_iff {f g : NameFlags} :
    f.overlaps g = true ↔ ∃ k, f.bits.testBit k = true ∧ g.bits.testBit k = true := by
  rw [overlaps, bne_iff_ne]
  constructor
  · intro h
    obtain ⟨k, hk⟩ := Nat.exists_testBit_of_ne_zero h
    rw [Nat.testBit_and, Bool.and_eq_true] at hk
    exact ⟨k, hk⟩
  · rintro ⟨k, hf, hg⟩ hzero
    have hk : (f.bits &&& g.bits).testBit k = true := by rw [Nat.testBit_and, hf, hg, Bool.and_self]
    rw [hzero, Nat.zero_testBit] at hk
    cases hk

/-- The four visibilities one by one. -/
def visibilities : List NameFlags := [privateBit, protectedBit, internalBit, publicBit]

theorem exists_mem_visibilities_iff {p : NameFlags → Prop} :
    (∃ b ∈ visibilities, p b) ↔ ∃ k < 4, p ⟨1 <<< k⟩ := by
  have hbits : visibilities = (List.range 4).map fun k => ⟨1 <<< k⟩ := by decide
  rw [hbits]
  constructor
  · rintro ⟨b, hb, hp⟩
    obtain ⟨k, hk, rfl⟩ := List.mem_map.mp hb
    exact ⟨k, List.mem_range.mp hk, hp⟩
  · rintro ⟨k, hk, hp⟩
    exact ⟨_, List.mem_map.mpr ⟨k, List.mem_range.mpr hk, rfl⟩, hp⟩

theorem overlaps_bit (f : NameFlags) (k : Nat) : f.overlaps ⟨1 <<< k⟩ = f.bits.testBit k := by
  rw [Bool.eq_iff_iff, overlaps_iff, Nat.one_shiftLeft]
  constructor
  · rintro ⟨m, hm, hk⟩
    rw [Nat.testBit_two_pow, decide_eq_true_eq] at hk
    rwa [hk]
  · intro hk
    exact ⟨k, hk, Nat.testBit_two_pow_self⟩

theorem testBit_allVisibilities (k : Nat) : allVisibilities.bits.testBit k = decide (k < 4) :=
  Nat.testBit_two_pow_sub_one 4 k

theorem overlaps_allVisibilities_iff {f : NameFlags} :
    f.overlaps allVisibilities = true ↔ ∃ b ∈ visibilities, f.overlaps b = true := by
  simp only [overlaps_iff (g := allVisibilities), exists_mem_visibilities_iff, overlaps_bit,
    testBit_allVisibilities, decide_eq_true_eq, and_comm]

/-- What carries no visibility is visible, and what carries some is when one of them is asked for. -/
theorem isVisible_iff {f v : NameFlags} : f.isVisible v = true ↔
    (∀ b ∈ visibilities, f.overlaps b = false) ∨
      ∃ b ∈ visibilities, f.overlaps b = true ∧ v.overlaps b = true := by
  have hnone : (!f.overlaps allVisibilities) = true ↔ ∀ b ∈ visibilities, f.overlaps b = false := by
    rw [Bool.not_eq_true', ← Bool.not_eq_true, overlaps_allVisibilities_iff]
    simp only [not_exists, not_and, Bool.not_eq_true]
  have hsome : ((f.bits &&& allVisibilities.bits) &&& v.bits != 0) = true ↔
      ∃ b ∈ visibilities, f.overlaps b = true ∧ v.overlaps b = true := by
    show overlaps ⟨f.bits &&& allVisibilities.bits⟩ v = true ↔ _
    simp only [overlaps_iff (g := v), exists_mem_visibilities_iff, overlaps_bit, Nat.testBit_and,
      testBit_allVisibilities, Bool.and_eq_true, decide_eq_true_eq, and_assoc, and_left_comm]
  rw [isVisible, Bool.or_eq_true, hnone, hsome]

/-- More visibilities show more. -/
theorem isVisible_mono {v w f : NameFlags}
    (h : ∀ b ∈ visibilities, v.overlaps b = true → w.overlaps b = true)
    (hf : f.isVisible v = true) : f.isVisible w = true := by
  rw [isVisible_iff] at hf ⊢
  refine hf.imp_right ?_
  rintro ⟨b, hb, hfb, hvb⟩
  exact ⟨b, hb, hfb, h b hb hvb⟩

end ApiDocs.NameFlags
