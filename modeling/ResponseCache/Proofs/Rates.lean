import ResponseCache.Proofs.Double.Share
import ResponseCache.Proofs.Words
import ResponseCache.Tally

/-!
# Rates

A rate is the share of some counters in a sum of counters, added up in a word. While the sum fits the word, the part is
not larger than the whole, the rate is between zero and one, and it is set to zero for want of a whole just if nothing
was counted. Counters whose sum does not fit have no rate: computing it crashes. That is `rates_exact`.
-/

namespace ResponseCache

/-! ## The rate of a cache -/

namespace Lru.Stats

variable {s : Lru.Stats}

/-- How many lookups were counted, hits and misses together. -/
def total (s : Lru.Stats) : Nat := s.hits.toNat + s.misses.toNat

theorem lookups_eq (s : Lru.Stats) : s.lookups = Words.fit s.total := rfl

/-- **Counters whose sum fits a word** have a rate. -/
theorem rate_of_fits (fits : s.total < 2 ^ 64) : ∃ lookups rate, s.lookups = .ok lookups ∧ s.rate = .ok rate ∧
    lookups.toNat = s.total ∧ s.hits ≤ lookups ∧ (lookups = 0 ↔ s.hits = 0 ∧ s.misses = 0) ∧ 0 ≤ rate ∧ rate ≤ 1 := by
  have summed : s.lookups = .ok (.ofNat s.total) := s.lookups_eq.trans (Words.fit_of_lt fits)
  have exact : (UInt64.ofNat s.total).toNat = s.total := Words.toNat_ofNat fits
  have le : s.hits ≤ .ofNat s.total := by
    rw [UInt64.le_iff_toNat_le, exact]
    exact Nat.le_add_right ..
  refine ⟨_, _, summed, by rw [rate, summed]; rfl, exact, le, ?_, ?_⟩
  · rw [Words.eq_zero_iff, exact, Words.eq_zero_iff, Words.eq_zero_iff]
    exact Nat.add_eq_zero_iff
  · split
    · exact Double.zero_mem
    · next some => exact Double.share_mem le (UInt64.pos_iff_ne_zero.2 some)

/-- Counters whose sum does not fit a word have none. -/
theorem rate_of_full (full : 2 ^ 64 ≤ s.total) : s.lookups = .error .overflow ∧ s.rate = .error .overflow := by
  have crashes : s.lookups = .error .overflow := s.lookups_eq.trans (Words.fit_of_le full)
  exact ⟨crashes, by rw [rate, crashes]; rfl⟩

/-- Where there is room, an event is counted as in a cache, which counts from zero. -/
theorem record_of_room (s : Lru.Stats) :
    (s.hits.toNat + 1 < 2 ^ 64 → s.record .hit = .ok s.hit) ∧
    (s.misses.toNat + 1 < 2 ^ 64 → s.record .miss = .ok s.miss) ∧
    (s.evictions.toNat + 1 < 2 ^ 64 → s.record .eviction = .ok s.eviction) := by
  have next {n : UInt64} (room : n.toNat + 1 < 2 ^ 64) : Words.add n 1 = .ok (n + 1) := by
    show Words.fit (n.toNat + 1) = _
    rw [Words.fit_of_lt room, Words.ofNat_succ, UInt64.ofNat_toNat]
  refine ⟨fun room => ?_, fun room => ?_, fun room => ?_⟩ <;> rw [record, next room] <;> rfl

end Lru.Stats

/-! ## The rate of a service -/

namespace Tally

variable {t : Tally}

/-- How many requests were counted whose way was decided. -/
def total (t : Tally) : Nat :=
  t.hits.toNat + t.waits.toNat + t.misses.toNat + t.bypasses.toNat + t.rejections.toNat

theorem served_eq (t : Tally) : t.served = Words.fit (t.hits.toNat + t.waits.toNat) := rfl

/-- The counters are added up one after the other; it does not matter where the sum outgrows the word. -/
theorem resolved_eq (t : Tally) : t.resolved = Words.fit t.total := by
  rw [total, ← Words.fit_bind_add, ← Words.fit_bind_add, ← Words.fit_bind_add, ← t.served_eq, resolved]
  simp only [bind_assoc]

/-- **Counters whose sum fits a word** have a rate. -/
theorem rate_of_fits (fits : t.total < 2 ^ 64) : ∃ served resolved rate,
    t.served = .ok served ∧ t.resolved = .ok resolved ∧ t.rate = .ok rate ∧
    served.toNat = t.hits.toNat + t.waits.toNat ∧ resolved.toNat = t.total ∧ served ≤ resolved ∧
    (resolved = 0 ↔ t.hits = 0 ∧ t.waits = 0 ∧ t.misses = 0 ∧ t.bypasses = 0 ∧ t.rejections = 0) ∧
    0 ≤ rate ∧ rate ≤ 1 := by
  have part : t.hits.toNat + t.waits.toNat ≤ t.total := by
    unfold total
    omega
  have served := t.served_eq.trans (Words.fit_of_lt (part.trans_lt fits))
  have resolved := t.resolved_eq.trans (Words.fit_of_lt fits)
  have exact := Words.toNat_ofNat fits
  have exact_part := Words.toNat_ofNat (part.trans_lt fits)
  have le : UInt64.ofNat (t.hits.toNat + t.waits.toNat) ≤ UInt64.ofNat t.total := by
    rwa [UInt64.le_iff_toNat_le, exact, exact_part]
  refine ⟨_, _, _, served, resolved, by rw [rate, served, resolved]; rfl, exact_part, exact, le, ?_, ?_⟩
  · rw [Words.eq_zero_iff, exact]
    simp only [Words.eq_zero_iff, total]
    omega
  · split
    · next some => exact Double.share_mem le some
    · exact Double.zero_mem

/-- Counters whose sum does not fit a word have none. -/
theorem rate_of_full (full : 2 ^ 64 ≤ t.total) : t.resolved = .error .overflow ∧ t.rate = .error .overflow := by
  have crashes : t.resolved = .error .overflow := t.resolved_eq.trans (Words.fit_of_le full)
  refine ⟨crashes, ?_⟩
  rw [rate, crashes, served_eq, Words.fit]
  split <;> rfl

end Tally

/-! ## Both rates -/

/-- **The rates**, for all counters. While the sum of the counters fits a word, the sums are exact, the part is not more
than the whole, the whole is zero just if all counters are, and there is a rate, between zero and one. Beyond that the
computation crashes. -/
theorem rates_exact (s : Lru.Stats) (t : Tally) :
    (s.total < 2 ^ 64 → ∃ lookups rate, s.lookups = .ok lookups ∧ s.rate = .ok rate ∧
      lookups.toNat = s.total ∧ s.hits ≤ lookups ∧ (lookups = 0 ↔ s.hits = 0 ∧ s.misses = 0) ∧
      0 ≤ rate ∧ rate ≤ 1) ∧
    (2 ^ 64 ≤ s.total → s.lookups = .error .overflow ∧ s.rate = .error .overflow) ∧
    (t.total < 2 ^ 64 → ∃ served resolved rate,
      t.served = .ok served ∧ t.resolved = .ok resolved ∧ t.rate = .ok rate ∧
      served.toNat = t.hits.toNat + t.waits.toNat ∧ resolved.toNat = t.total ∧ served ≤ resolved ∧
      (resolved = 0 ↔ t.hits = 0 ∧ t.waits = 0 ∧ t.misses = 0 ∧ t.bypasses = 0 ∧ t.rejections = 0) ∧
      0 ≤ rate ∧ rate ≤ 1) ∧
    (2 ^ 64 ≤ t.total → t.resolved = .error .overflow ∧ t.rate = .error .overflow) :=
  ⟨Lru.Stats.rate_of_fits, Lru.Stats.rate_of_full, Tally.rate_of_fits, Tally.rate_of_full⟩

/-- The counters of a cache and those of a service that just fill a word, and those that are one more. -/
theorem rates_exact_full :
    (∃ rate, Lru.Stats.rate { hits := 18446744073709551614, misses := 1 } = .ok rate ∧ 0 ≤ rate ∧ rate ≤ 1) ∧
    Lru.Stats.rate { hits := 18446744073709551614, misses := 2 } = .error .overflow ∧
    (∃ rate, Tally.rate ⟨18446744073709551600, 2, 4, 8, 1, 0⟩ = .ok rate ∧ 0 ≤ rate ∧ rate ≤ 1) ∧
    Tally.rate ⟨18446744073709551600, 2, 4, 8, 2, 0⟩ = .error .overflow := by
  obtain ⟨cache, -, service, -⟩ := rates_exact { hits := 18446744073709551614, misses := 1 }
    ⟨18446744073709551600, 2, 4, 8, 1, 0⟩
  obtain ⟨-, cache', -, service'⟩ := rates_exact { hits := 18446744073709551614, misses := 2 }
    ⟨18446744073709551600, 2, 4, 8, 2, 0⟩
  obtain ⟨-, rate, -, is, -, -, -, bounds⟩ := cache (by decide)
  obtain ⟨-, -, rate', -, -, is', -, -, -, -, bounds'⟩ := service (by decide)
  exact ⟨⟨rate, is, bounds⟩, (cache' (by decide)).2, ⟨rate', is', bounds'⟩, (service' (by decide)).2⟩

/-- **A cache that has counted as many hits as a word can hold** has a rate; after one miss more it has none, although
the share of hits in its lookups would be a number. Nor has a service with two requests more than a word can hold, one
of them served. -/
theorem no_rate_of_full_counters :
    (∃ rate, Lru.Stats.rate { hits := 18446744073709551615 } = .ok rate) ∧
    Lru.Stats.record { hits := 18446744073709551615 } .miss = .ok { hits := 18446744073709551615, misses := 1 } ∧
    Lru.Stats.rate { hits := 18446744073709551615, misses := 1 } = .error .overflow ∧
    Tally.rate { hits := 1, misses := 18446744073709551615, waits := 1 } = .error .overflow :=
  ⟨⟨_, rfl⟩, rfl, rfl, rfl⟩

end ResponseCache
