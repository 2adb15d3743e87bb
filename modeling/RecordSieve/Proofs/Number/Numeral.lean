import RecordSieve.Proofs.Number.Digits
import RecordSieve.Proofs.Number.Rounding

namespace RecordSieve

namespace Magnitude

theorem ofDecimal?_mul_pow (c k : Nat) (e : Int) :
    ofDecimal? (c * 10 ^ k) (e - k) = ofDecimal? c e := by
  rcases Nat.eq_zero_or_pos c with rfl | hc
  · simp [ofDecimal?]
  have hk : c * 10 ^ k ≠ 0 := Nat.mul_ne_zero (by omega) (Nat.pow_pos (by decide)).ne'
  have hreach : ((digitCount (c * 10 ^ k) : Nat) : Int) + (e - k) = digitCount c + e := by
    rw [digitCount_mul_pow hc]
    omega
  have hround : round? (c * 10 ^ k * 10 ^ (e - k).toNat * unitsPerOne) (10 ^ (-(e - k)).toNat) =
      round? (c * 10 ^ e.toNat * unitsPerOne) (10 ^ (-e).toNat) := by
    apply round?_congr (Nat.pow_pos (by decide)) (Nat.pow_pos (by decide))
    have hexp : k + (e - k).toNat + (-e).toNat = e.toNat + (-(e - k)).toNat := by omega
    calc c * 10 ^ k * 10 ^ (e - k).toNat * unitsPerOne * 10 ^ (-e).toNat
        = c * 10 ^ (k + (e - k).toNat + (-e).toNat) * unitsPerOne := by ring
      _ = c * 10 ^ (e.toNat + (-(e - k)).toNat) * unitsPerOne := by rw [hexp]
      _ = c * 10 ^ e.toNat * unitsPerOne * 10 ^ (-(e - k)).toNat := by ring
  simp only [ofDecimal?, hreach, hk, Nat.pos_iff_ne_zero.1 hc, false_or, Nat.pow_eq, hround]

theorem ofDecimal?_mul_ten (c : Nat) (e : Int) : ofDecimal? (c * 10) e = ofDecimal? c (e + 1) := by
  have h := ofDecimal?_mul_pow c 1 (e + 1)
  rwa [Nat.pow_one, Nat.cast_one, Int.add_sub_cancel] at h

theorem ofDecimal?_toNat {c : Nat} {e : Int} (he : 0 ≤ e) :
    ofDecimal? c e = ofDecimal? (c * 10 ^ e.toNat) 0 := by
  have h := ofDecimal?_mul_pow c e.toNat e
  rwa [Int.toNat_of_nonneg he, Int.sub_self, eq_comm] at h

theorem units_lt_of_scale_le {m : Magnitude} {k : Nat} (h : m.scale ≤ k) :
    m.units < Nat.pow 2 53 * Nat.pow 2 k :=
  Nat.lt_of_lt_of_le (Nat.mul_lt_mul_of_pos_right m.bounded (Nat.two_pow_pos _))
    (Nat.mul_le_mul_left _ (Nat.pow_le_pow_right (by decide) h))

theorem powers_bound : ∃ low high scale e, low = 750 ∧ high = 1384 ∧ scale = 2045 ∧ e = 1074 ∧
    Nat.pow 10 low ≤ Nat.pow 5 e ∧ Nat.pow 2 53 * Nat.pow 2 scale * Nat.pow 5 e < Nat.pow 10 high :=
  ⟨750, 1384, 2045, 1074, rfl, rfl, rfl, rfl, by decide +kernel⟩

theorem digitCount_bounds {low high n : Nat} (hp : 0 < low) (hl : Nat.pow 10 low ≤ n)
    (hh : n < Nat.pow 10 high) : low ≤ digitCount n ∧ digitCount n ≤ high := by
  have hlt : low < high := (Nat.pow_lt_pow_iff_right (by decide)).1 (Nat.lt_of_le_of_lt hl hh)
  refine ⟨Nat.not_lt.1 fun h => ?_, (digitCount_le_iff (by omega)).2 hh⟩
  exact absurd ((digitCount_le_iff hp).1 (Nat.le_of_lt h)) (Nat.not_lt.2 hl)

theorem digitCount_units_mul {m : Magnitude} {low high five k : Nat} (hm : 0 < m.units)
    (hk : m.scale ≤ k) (hp : 0 < low) (hlow : Nat.pow 10 low ≤ five)
    (hhigh : Nat.pow 2 53 * Nat.pow 2 k * five < Nat.pow 10 high) :
    low ≤ digitCount (m.units * five) ∧ digitCount (m.units * five) ≤ high := by
  refine digitCount_bounds hp (Nat.le_trans hlow (Nat.le_mul_of_pos_left _ hm)) ?_
  exact Nat.lt_of_le_of_lt (Nat.mul_le_mul_right _ (Nat.le_of_lt (units_lt_of_scale_le hk))) hhigh

theorem round?_exact (m : Magnitude) (e : Nat) :
    round? (m.units * Nat.pow 5 e * Nat.pow 2 e) (Nat.pow 10 e) = some m := by
  rw [← m.round?_units 1 (by decide)]
  apply round?_congr (Nat.pow_pos (by decide)) (by decide)
  simp only [Nat.pow_eq, show (10 : Nat) = 5 * 2 by rfl, Nat.mul_pow]
  ring

theorem ofDecimal?_units {m : Magnitude} (hm : 0 < m.units) {e : Nat} (he : e = 1074) :
    ofDecimal? (m.units * Nat.pow 5 e) (-e) = some m := by
  obtain ⟨low, high, scale, e', hlow, hhigh, hscale, he', hlow', hhigh'⟩ := powers_bound
  obtain ⟨e'', he'', hone⟩ := unitsPerOne_eq_two_pow
  obtain rfl : e' = e := by omega
  obtain rfl : e'' = e' := by omega
  have hcount := digitCount_units_mul hm (hscale ▸ m.inRange) (by omega) hlow' hhigh'
  have hround := m.round?_exact e''
  have hne : m.units * Nat.pow 5 e'' ≠ 0 := Nat.mul_ne_zero (by omega) (Nat.pow_pos (by decide)).ne'
  rw [show Nat.pow 2 e'' = unitsPerOne from hone.symm] at hround
  generalize m.units * Nat.pow 5 e'' = c at *
  simp only [ofDecimal?]
  rw [if_neg (by omega), if_neg (by omega), Int.neg_neg, Int.toNat_natCast, Int.toNat_neg_natCast]
  simpa using hround

theorem onGrid?_reads {m : Magnitude} {e : Int} {d : Nat × Int} (h : m.onGrid? e = some d) :
    ofDecimal? d.1 d.2 = some m ∧ d.2 = e := by
  simp only [onGrid?] at h
  have hcases := nearestEven_cases (m.inPowers e).1 (m.inPowers e).2
  generalize (m.inPowers e).1 / (m.inPowers e).2 = below at *
  split at h
  · rename_i hb
    split at h
    · rename_i ha
      obtain rfl := Option.some.inj h
      rcases hcases with hn | hn <;> simp only [hn]
      · exact ⟨of_decide_eq_true hb, trivial⟩
      · exact ⟨of_decide_eq_true ha, trivial⟩
    · obtain rfl := Option.some.inj h
      exact ⟨of_decide_eq_true hb, rfl⟩
  · split at h
    · rename_i ha
      obtain rfl := Option.some.inj h
      exact ⟨of_decide_eq_true ha, rfl⟩
    · simp at h

theorem firstGrid?_reads {m : Magnitude} {e : Int} {steps : Nat} {d : Nat × Int}
    (h : m.firstGrid? e steps = some d) :
    ofDecimal? d.1 d.2 = some m ∧ ∀ g, d.2 < g → g ≤ e → m.onGrid? g = none := by
  induction steps generalizing e with
  | zero => simp [firstGrid?] at h
  | succ steps ih =>
      rw [firstGrid?, Option.or_eq_some_iff] at h
      rcases h with h | ⟨hnone, h⟩
      · obtain ⟨hr, he⟩ := onGrid?_reads h
        exact ⟨hr, fun g hg hge => by omega⟩
      · obtain ⟨hr, hfirst⟩ := ih h
        refine ⟨hr, fun g hg hge => ?_⟩
        rcases Int.lt_or_eq_of_le hge with hlt | rfl
        · exact hfirst g hg (by omega)
        · exact hnone

theorem shortest_eq (m : Magnitude) : ∃ e : Nat, e = 1074 ∧
    m.shortest = (m.firstGrid? m.leadingExponent 17).getD (m.units * Nat.pow 5 e, -e) := by
  have h : (1074 : Int) = (1074 : Nat) := rfl
  unfold shortest
  rw [h]
  generalize 1074 = e
  exact ⟨e, rfl, rfl⟩

theorem shortest_reads {m : Magnitude} (hm : 0 < m.units) :
    ofDecimal? m.shortest.1 m.shortest.2 = some m := by
  obtain ⟨e, he, hs⟩ := m.shortest_eq
  rw [hs]
  cases hg : m.firstGrid? m.leadingExponent 17 with
  | none => exact ofDecimal?_units hm he
  | some d => exact (firstGrid?_reads hg).1

theorem stripZeros_reads (fuel : Nat) (d : Nat × Int) :
    ofDecimal? (stripZeros fuel d).1 (stripZeros fuel d).2 = ofDecimal? d.1 d.2 := by
  induction fuel generalizing d with
  | zero => rfl
  | succ fuel ih =>
      obtain ⟨c, e⟩ := d
      rw [stripZeros]
      split
      · rename_i h
        rw [ih, ← ofDecimal?_mul_ten, Nat.div_mul_cancel (Nat.dvd_of_mod_eq_zero h.2)]
      · rfl

theorem le_stripZeros (fuel : Nat) (d : Nat × Int) : d.2 ≤ (stripZeros fuel d).2 := by
  induction fuel generalizing d with
  | zero => exact Int.le_refl _
  | succ fuel ih =>
      obtain ⟨c, e⟩ := d
      rw [stripZeros]
      split
      · exact Int.le_trans (by simp) (ih _)
      · exact Int.le_refl _

theorem add_le_stripZeros {c k fuel : Nat} (e : Int) (hc : 0 < c) (hk : k ≤ fuel) :
    e + k ≤ (stripZeros fuel (c * 10 ^ k, e)).2 := by
  induction k generalizing fuel e with
  | zero => simpa using le_stripZeros fuel (c, e)
  | succ k ih =>
      obtain ⟨fuel, rfl⟩ : ∃ f, fuel = f + 1 := ⟨fuel - 1, by omega⟩
      have hmod : c * 10 ^ (k + 1) % 10 = 0 := by
        rw [Nat.pow_succ, ← Nat.mul_assoc, Nat.mul_mod_left]
      have hdiv : c * 10 ^ (k + 1) / 10 = c * 10 ^ k := by
        rw [Nat.pow_succ, ← Nat.mul_assoc, Nat.mul_div_cancel _ (by decide)]
      have hne : c * 10 ^ (k + 1) ≠ 0 := Nat.mul_ne_zero (by omega) (Nat.pow_pos (by decide)).ne'
      rw [stripZeros, if_pos ⟨hne, hmod⟩, hdiv]
      have h : e + 1 + k ≤ (stripZeros fuel (c * 10 ^ k, e + 1)).2 := ih (e + 1) (by omega)
      omega

theorem numeral_reads {m : Magnitude} (hm : 0 < m.units) :
    ofDecimal? m.numeral.1 m.numeral.2 = some m := by
  rw [numeral, stripZeros_reads]
  exact shortest_reads hm

theorem numeral_pos {m : Magnitude} (hm : 0 < m.units) : 0 < m.numeral.1 := by
  refine Nat.pos_of_ne_zero fun h0 => ?_
  have h := numeral_reads hm
  rw [h0] at h
  simp only [ofDecimal?, true_or, if_true, Option.some.injEq] at h
  rw [← h] at hm
  simp [units, zero] at hm

theorem ofDecimal?_natural {m : Magnitude} {n : Nat} (hn : 0 < n) (hm : m.units = n * unitsPerOne) :
    ofDecimal? n 0 = some m := by
  obtain ⟨e, he, hone⟩ := unitsPerOne_eq_two_pow
  have h := ofDecimal?_units (hm ▸ Nat.mul_pos hn unitsPerOne_pos) he
  have hpow : m.units * Nat.pow 5 e = n * 10 ^ e := by
    rw [hm, hone, Nat.pow_eq, Nat.mul_assoc, ← Nat.mul_pow]
  rw [hpow, ← Int.zero_sub, ofDecimal?_mul_pow] at h
  exact h

theorem round?_of_ofDecimal? {m : Magnitude} {n : Nat} (hn : 0 < n)
    (h : ofDecimal? n 0 = some m) : round? (n * unitsPerOne) 1 = some m := by
  have hreach : ¬ ((digitCount n : Int) + 0 < -330) := by omega
  simp only [ofDecimal?, hn.ne', hreach, false_or, if_false] at h
  split at h
  · simp at h
  · simpa using h

theorem unitsPerOne_dvd_units_iff {m : Magnitude} (hm : 0 < m.units) :
    unitsPerOne ∣ m.units ↔ 0 ≤ m.numeral.2 := by
  constructor
  · rintro ⟨n, hn⟩
    rw [Nat.mul_comm] at hn
    have hpos : 0 < n := Nat.pos_of_ne_zero fun h => by simp [hn, h] at hm
    have hdiv : m.units / unitsPerOne = n := by rw [hn, Nat.mul_div_cancel _ unitsPerOne_pos]
    have hgrid : m.onGrid? 0 ≠ none := by
      have hback : ofDecimal? n 0 = some m := ofDecimal?_natural hpos hn
      simp only [onGrid?, inPowers, Int.neg_zero, Int.toNat_zero, Nat.pow_eq, Nat.pow_zero,
        Nat.mul_one, hdiv, hback, decide_true, if_true]
      split <;> simp
    have hlead : 0 ≤ m.leadingExponent := by
      have hle : unitsPerOne ≤ m.units := hn ▸ Nat.le_mul_of_pos_left _ hpos
      have := digitCount_pos hpos
      rw [leadingExponent, if_pos hle, hdiv]
      omega
    obtain ⟨e, he, hs⟩ := m.shortest_eq
    cases hg : m.firstGrid? m.leadingExponent 17 with
    | some d =>
        rw [hg, Option.getD_some] at hs
        have hd : 0 ≤ d.2 := Int.not_lt.1 fun h => hgrid ((firstGrid?_reads hg).2 0 h hlead)
        exact Int.le_trans hd (hs ▸ le_stripZeros _ _)
    | none =>
        obtain ⟨e', he', hone⟩ := unitsPerOne_eq_two_pow
        obtain rfl : e' = e := by omega
        have hpow : m.units * Nat.pow 5 e' = n * 10 ^ e' := by
          rw [hn, hone, Nat.pow_eq, Nat.mul_assoc, ← Nat.mul_pow]
        rw [hg, Option.getD_none, hpow] at hs
        have hfuel : e' ≤ digitCount (n * 10 ^ e') := by
          rw [digitCount_mul_pow hpos]
          omega
        have h := add_le_stripZeros (-e') hpos hfuel
        simp only [numeral, hs]
        omega
  · intro he
    have h := numeral_reads hm
    have hpos := Nat.mul_pos (numeral_pos hm) (Nat.pow_pos (n := m.numeral.2.toNat) (show 0 < 10 by decide))
    rw [ofDecimal?_toNat he] at h
    exact unitsPerOne_dvd_units (round?_of_ofDecimal? hpos h)

theorem numeral_natural {m : Magnitude} {n : Nat} (hn : 0 < n) (hlt : n < 2 ^ 53)
    (hm : m.units = n * unitsPerOne) :
    0 ≤ m.numeral.2 ∧ m.numeral.1 * 10 ^ m.numeral.2.toNat = n := by
  have hpos : 0 < m.units := hm ▸ Nat.mul_pos hn unitsPerOne_pos
  have he := (unitsPerOne_dvd_units_iff hpos).1 (hm ▸ Nat.dvd_mul_left _ _)
  have h := numeral_reads hpos
  rw [ofDecimal?_toNat he] at h
  have hvalue := Nat.mul_pos (numeral_pos hpos) (Nat.pow_pos (n := m.numeral.2.toNat) (show 0 < 10 by decide))
  exact ⟨he, natural_of_round? hlt hm (round?_of_ofDecimal? hvalue h)⟩

theorem render_natural {m : Magnitude} {n : Nat} (hn : 0 < n) (hlt : n < 2 ^ 53)
    (hm : m.units = n * unitsPerOne) : m.render Layout.usual.text = digitsOf n := by
  obtain ⟨he, hval⟩ := numeral_natural hn hlt hm
  have hc := numeral_pos (hm ▸ Nat.mul_pos hn unitsPerOne_pos)
  have hlen : digitCount n ≤ 16 := (digitCount_le_iff (by decide)).2 (by omega)
  have hcount := digitCount_mul_pow hc m.numeral.2.toNat
  rw [hval, digitCount_eq hc] at hcount
  have hleast : Layout.usual.least ≤ (digitsOf m.numeral.1).length + m.numeral.2 := by
    have h : Layout.usual.least = -5 := rfl
    omega
  have hgreatest : (digitsOf m.numeral.1).length + m.numeral.2 ≤ Layout.usual.greatest := by
    have h : Layout.usual.greatest = 21 := rfl
    omega
  calc m.render Layout.usual.text
      = positional (digitsOf m.numeral.1) ((digitsOf m.numeral.1).length + m.numeral.2) :=
        if_pos ⟨hleast, hgreatest⟩
    _ = digitsOf (m.numeral.1 * 10 ^ m.numeral.2.toNat) := by
        rw [positional_of_nonneg (digitsOf_ne_nil _) he, ← digitsOf_mul_pow hc]
    _ = digitsOf n := by rw [hval]

end Magnitude

namespace Binary64

theorem signed_neg_iff {negative : Bool} {n : Nat} (hn : 0 < n) :
    signed negative n < 0 ↔ negative = true := by
  cases negative with
  | false => simp [signed]
  | true =>
      simp only [signed, if_true, iff_true]
      omega

theorem text_eq_intText {x : Binary64} {n : Int} (h : x.safeInteger? = some n) : x.text = intText n := by
  obtain ⟨hint, hsafe⟩ := safeInteger?_eq_some.1 h
  obtain ⟨negative, m, rfl, hm, hn⟩ := integer?_eq_some hint
  rcases Nat.eq_zero_or_pos n.natAbs with h0 | hpos
  · have hu : m.units = 0 := by rw [hm, h0, Nat.zero_mul]
    have hz : n = 0 := Int.natAbs_eq_zero.1 h0
    subst hz
    rw [text, if_pos hu]
    rfl
  · have hne : m.units ≠ 0 := hm ▸ (Nat.mul_pos hpos unitsPerOne_pos).ne'
    have hrender := Magnitude.render_natural hpos (natAbs_lt_of_isSafe hsafe) hm
    have hsign : n < 0 ↔ negative = true := by
      rw [hn]
      exact signed_neg_iff hpos
    simp only [text, hne, if_false, hrender, intText, hsign]
    cases negative <;> simp

end Binary64

end RecordSieve
