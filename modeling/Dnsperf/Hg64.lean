import Mathlib.Data.UInt
import Mathlib.Algebra.BigOperators.Group.List.Basic
import Dnsperf.Lib.LogLinear

/-!
# Dnsperf.Hg64

The histograms of `ext/hg64.c`. Values are mapped to keys by their leading bits; the counters of a
run of `BINSIZE` keys are a bin, which is allocated when a counter of it is first needed. Keys and
the `unsigned` numbers made from them are small, values and counters have 64 bits.

A histogram is read through its counters: `getKeyCount_addKeyCount` says what an update does to
them, and the loops over the keys come down to it. `hg64_next` skips bins that are not there, and
with them only counters that are 0 (`hg64Keys_eq`).
-/

namespace Dnsperf

open Lib

/-! ### Keys -/

/-- The number of bins is the number of bits in a value. -/
def bins : Nat := 64

/-- `BINSIZE`, for `sigbits = p`. -/
def binsize (p : Nat) : Nat := 2 ^ p

/-- `KEYS`: `EXPONENTS` times `MANTISSAS`. -/
def keys (p : Nat) : Nat := (bins - (p - 1)) * binsize p

/-- `key_to_minval`. The exponent is not used where it would be below 0. -/
def keyToMinval (p key : Nat) : UInt64 :=
  let exponent := key / binsize p - 1
  let mantissa := key % binsize p + binsize p
  if key < binsize p then UInt64.ofNat key else UInt64.ofNat (mantissa <<< exponent)

/-- `key_to_maxval`. -/
def keyToMaxval (p key : Nat) : UInt64 :=
  let shift := 63 - key / binsize p
  let range := ((2 ^ 64 - 1) / 4) >>> shift
  keyToMinval p key + UInt64.ofNat range

/-- `value_to_key`. -/
def valueToKey (p : Nat) (value : UInt64) : Nat :=
  let binned := value.toNat ||| binsize p
  -- `__builtin_clzll`, for a number that is not 0
  let clz := 63 - binned.log2
  let exponent := 63 - p - clz
  let mantissa := value.toNat >>> exponent
  (exponent <<< p) + mantissa

/-- What `hg64_create` accepts for `sigbits`. -/
def ValidSigbits (p : Nat) : Prop := 1 ≤ p ∧ p ≤ 15

instance (p : Nat) : Decidable (ValidSigbits p) := inferInstanceAs (Decidable (_ ∧ _))

section Keys

variable {p key : Nat} (hp : ValidSigbits p)

theorem binsize_pos (p : Nat) : 0 < binsize p := Nat.two_pow_pos p

include hp

theorem keys_eq : keys p = LogLinear.buckets p 64 := by
  unfold keys LogLinear.buckets bins binsize
  congr 1
  have := hp.1
  omega

theorem valueToKey_eq (value : UInt64) :
    valueToKey p value = LogLinear.bucket p value.toNat := by
  have hlog : (value.toNat ||| 2 ^ p).log2 < 64 := by
    refine (Nat.log2_lt (LogLinear.or_two_pow_ne_zero p _)).mpr ?_
    exact Nat.or_lt_two_pow value.toNat_lt
      (Nat.pow_lt_pow_right (by decide) (by have := hp.2; omega))
  have hexp : 63 - p - (63 - (value.toNat ||| 2 ^ p).log2) = LogLinear.exponent p value.toNat := by
    unfold LogLinear.exponent
    omega
  unfold valueToKey binsize
  dsimp only
  rw [hexp, Nat.shiftLeft_eq, Nat.shiftRight_eq_div_pow]
  rfl

theorem valueToKey_lt (value : UInt64) : valueToKey p value < keys p := by
  rw [valueToKey_eq hp, keys_eq hp]
  exact LogLinear.bucket_lt (by have := hp.2; omega) value.toNat_lt

theorem toNat_keyToMinval (hkey : key < keys p) :
    (keyToMinval p key).toNat = LogLinear.lower p key := by
  rw [keys_eq hp] at hkey
  have hlt : LogLinear.lower p key < 2 ^ 64 :=
    lt_of_le_of_lt (LogLinear.lower_le_upper p key)
      (LogLinear.upper_lt (by have := hp.2; omega) hkey)
  have hval : keyToMinval p key = UInt64.ofNat (LogLinear.lower p key) := by
    unfold keyToMinval LogLinear.lower binsize
    dsimp only
    rw [Nat.shiftLeft_eq]
    split <;> rfl
  rw [hval, UInt64.toNat_ofNat_of_lt' hlt]

theorem toNat_keyToMaxval (hkey : key < keys p) :
    (keyToMaxval p key).toNat = LogLinear.upper p key := by
  have hmin := toNat_keyToMinval hp hkey
  rw [keys_eq hp] at hkey
  have hlt := LogLinear.upper_lt (by have := hp.2; omega) hkey
  have hdiv : key / 2 ^ p ≤ 63 := by
    have := (Nat.div_lt_iff_lt_mul (Nat.two_pow_pos p)).mpr hkey
    have := hp.1
    omega
  have hrange : ((2 ^ 64 - 1) / 4) >>> (63 - key / 2 ^ p) = 2 ^ LogLinear.free p key - 1 := by
    have hquarter : (2 ^ 64 - 1) / 4 = 2 ^ 62 - 1 := by decide
    rw [hquarter, Nat.shiftRight_eq_div_pow]
    unfold LogLinear.free
    generalize key / 2 ^ p = b at hdiv
    interval_cases b <;> rfl
  unfold keyToMaxval binsize
  dsimp only
  rw [hrange, UInt64.toNat_add, hmin, UInt64.toNat_ofNat_of_lt', Nat.mod_eq_of_lt]
  · rfl
  · exact hlt
  · exact lt_of_le_of_lt (Nat.le_add_left _ _) hlt

/-- **The range of a key** holds the values of that key. -/
theorem mem_range_iff (hkey : key < keys p) (value : UInt64) :
    keyToMinval p key ≤ value ∧ value ≤ keyToMaxval p key ↔ valueToKey p value = key := by
  rw [UInt64.le_iff_toNat_le, UInt64.le_iff_toNat_le, toNat_keyToMinval hp hkey,
    toNat_keyToMaxval hp hkey, valueToKey_eq hp, LogLinear.bucket_eq_iff]

theorem keyToMinval_le (hkey : key < keys p) : keyToMinval p key ≤ keyToMaxval p key := by
  rw [UInt64.le_iff_toNat_le, toNat_keyToMinval hp hkey, toNat_keyToMaxval hp hkey]
  exact LogLinear.lower_le_upper p key

theorem valueToKey_minval (hkey : key < keys p) : valueToKey p (keyToMinval p key) = key :=
  (mem_range_iff hp hkey _).mp ⟨UInt64.le_rfl, keyToMinval_le hp hkey⟩

theorem valueToKey_maxval (hkey : key < keys p) : valueToKey p (keyToMaxval p key) = key :=
  (mem_range_iff hp hkey _).mp ⟨keyToMinval_le hp hkey, UInt64.le_rfl⟩

end Keys

/-! ### Histograms -/

/-- `struct hg64` with `sigbits = p`: `bin[b]` is `NULL`, or an array of `BINSIZE` counters. -/
structure Hg64 (p : Nat) where
  bin : Nat → Option (Nat → UInt64)
  valid : ValidSigbits p

/-- What is read for a key: its range and its counter. -/
structure Row where
  min : UInt64
  max : UInt64
  count : UInt64
  deriving DecidableEq, Repr

/-- The value is in the range of the row. -/
def Row.Holds (r : Row) (x : UInt64) : Prop := r.min ≤ x ∧ x ≤ r.max

instance (r : Row) (x : UInt64) : Decidable (r.Holds x) := inferInstanceAs (Decidable (_ ∧ _))

namespace Hg64

variable {p q : Nat}

/-- `hg64_create`. -/
def hg64Create (p : Nat) : Option (Hg64 p) :=
  if h : ValidSigbits p then some ⟨fun _ => none, h⟩ else none

variable (hg : Hg64 p)

/-- `key_to_counter`. -/
def keyToCounter (key : Nat) : Option UInt64 :=
  (hg.bin (key / binsize p)).map fun bp => bp (key % binsize p)

/-- `get_key_count`. -/
def getKeyCount (key : Nat) : UInt64 := (hg.keyToCounter key).getD 0

/-- `add_key_count`: a bin that is not there is allocated, with all counters 0. -/
def addKeyCount (key : Nat) (inc : UInt64) : Hg64 p :=
  if inc = 0 then hg
  else
    let b := key / binsize p
    let c := key % binsize p
    let bp := (hg.bin b).getD fun _ => 0
    { hg with bin := Function.update hg.bin b (some (Function.update bp c (bp c + inc))) }

/-- `hg64_inc`. -/
def hg64Inc (value : UInt64) : Hg64 p := hg.addKeyCount (valueToKey p value) 1

/-- `hg64_get`. -/
def hg64Get (key : Nat) : Option Row :=
  if key < keys p then some ⟨keyToMinval p key, keyToMaxval p key, hg.getKeyCount key⟩ else none

/-- The loop of `hg64_next`: past bins that are not there. -/
def skipBins : Nat → Nat → Nat
  | 0, key => key
  | fuel + 1, key =>
      if key < keys p ∧ key &&& (binsize p - 1) = 0 ∧ hg.keyToCounter key = none then
        skipBins fuel (key + binsize p)
      else key

/-- `hg64_next`. There are no more bins to skip than `BINS`. -/
def hg64Next (key : Nat) : Nat := hg.skipBins bins (key + 1)

/-- The keys of a loop `for (; hg64_get(hg, key, ..); key = hg64_next(hg, key))`. -/
def keysFrom : Nat → Nat → List Nat
  | 0, _ => []
  | fuel + 1, key => if (hg.hg64Get key).isSome then key :: keysFrom fuel (hg.hg64Next key) else []

/-- The same from `key = 0` on. The keys grow, so there are not more than `KEYS`. -/
def hg64Keys : List Nat := hg.keysFrom (keys p + 1) 0

/-- `hg64_merge`: the count of a key of `source` is spread over the keys of `target` for its
range. -/
def hg64Merge (target : Hg64 p) (source : Hg64 q) : Hg64 p :=
  source.hg64Keys.foldl (fun target skey =>
    let count := source.getKeyCount skey
    let tkmin := valueToKey p (keyToMinval q skey)
    let tkmax := valueToKey p (keyToMaxval q skey)
    let keys := UInt64.ofNat (tkmax - tkmin + 1)
    let div := count / keys
    let rem := count % keys
    (List.range' tkmin (tkmax + 1 - tkmin)).foldl (fun target tkey =>
      target.addKeyCount tkey (div + if UInt64.ofNat tkey < rem then 1 else 0)) target) target

/-- `hg64_diff`: what `a` has more than `b` is added to `diff`. -/
def hg64Diff (a b diff : Hg64 p) : Hg64 p :=
  (List.range (keys p)).foldl (fun diff key =>
    diff.addKeyCount key (a.getKeyCount key - b.getKeyCount key)) diff

/-- `hg64_min_key`. -/
def hg64MinKey : Nat := (hg.hg64Keys.find? fun key => 0 < hg.getKeyCount key).getD 0

/-- `hg64_max_key`. -/
def hg64MaxKey : Nat :=
  hg.hg64Keys.foldl (fun last key => if 0 < hg.getKeyCount key then key else last) 0

variable {hg}

/-! ### Counters -/

theorem getKeyCount_hg64Create {h : Hg64 p} (hcreate : hg64Create p = some h) (key : Nat) :
    h.getKeyCount key = 0 := by
  obtain ⟨hp, hcreate⟩ := Option.dite_none_right_eq_some.mp hcreate
  rw [← Option.some.inj hcreate]
  rfl

/-- **An update adds to one counter.** -/
theorem getKeyCount_addKeyCount (hg : Hg64 p) (key key' : Nat) (inc : UInt64) :
    (hg.addKeyCount key inc).getKeyCount key' =
      hg.getKeyCount key' + if key' = key then inc else 0 := by
  unfold addKeyCount
  by_cases hinc : inc = 0
  · rw [if_pos hinc, hinc, ite_self]
    exact (UInt64.add_zero _).symm
  rw [if_neg hinc]
  unfold getKeyCount keyToCounter
  dsimp only
  by_cases hb : key' / binsize p = key / binsize p
  · rw [hb, Function.update_self, Option.map_some, Option.getD_some]
    have hbp : ((hg.bin (key / binsize p)).map fun bp => bp (key' % binsize p)).getD 0 =
        (hg.bin (key / binsize p)).getD (fun _ => 0) (key' % binsize p) := by
      cases hg.bin (key / binsize p) <;> rfl
    rw [hbp]
    by_cases hc : key' % binsize p = key % binsize p
    · have hkey : key' = key := by
        rw [← Nat.div_add_mod' key' (binsize p), hb, hc, Nat.div_add_mod']
      rw [hc, Function.update_self, if_pos hkey]
    · have hkey : key' ≠ key := fun hkey => hc (by rw [hkey])
      rw [Function.update_of_ne hc, if_neg hkey]
      exact (UInt64.add_zero _).symm
  · have hkey : key' ≠ key := fun hkey => hb (by rw [hkey])
    rw [Function.update_of_ne hb, if_neg hkey]
    exact (UInt64.add_zero _).symm

theorem getKeyCount_foldl {ks : List Nat} (hnodup : ks.Nodup) (f : Nat → UInt64) (hg : Hg64 p)
    (key : Nat) :
    (ks.foldl (fun hg k => hg.addKeyCount k (f k)) hg).getKeyCount key =
      hg.getKeyCount key + if key ∈ ks then f key else 0 := by
  induction ks generalizing hg with
  | nil => exact (UInt64.add_zero _).symm
  | cons k ks ih =>
      obtain ⟨hk, hks⟩ := List.nodup_cons.mp hnodup
      rw [List.foldl_cons, ih hks, getKeyCount_addKeyCount]
      by_cases heq : key = k
      · subst heq
        rw [if_pos rfl, if_neg hk, if_pos List.mem_cons_self]
        exact UInt64.add_zero _
      · have hmem : key ∈ k :: ks ↔ key ∈ ks := by simp [heq]
        rw [if_neg heq, UInt64.add_zero]
        simp only [hmem]

/-! ### The loop over the keys -/

/-- A key whose bin is there, or in the first bin. -/
def Live (hg : Hg64 p) (key : Nat) : Bool := key < binsize p || (hg.bin (key / binsize p)).isSome

theorem getKeyCount_of_not_live {key : Nat} (h : ¬ hg.Live key = true) :
    hg.getKeyCount key = 0 := by
  simp only [Live, Bool.or_eq_true, not_or, Option.not_isSome_iff_eq_none] at h
  rw [getKeyCount, keyToCounter, h.2]
  rfl

theorem and_binsize (key : Nat) : key &&& (binsize p - 1) = key % binsize p :=
  Nat.and_two_pow_sub_one_eq_mod key p

/-- From the start of a bin: only bins that are not there are skipped. -/
theorem skipBins_spec (fuel : Nat) {key : Nat} (hstart : key % binsize p = 0)
    (hfirst : binsize p ≤ key) (hfuel : keys p ≤ key + fuel * binsize p) :
    key ≤ hg.skipBins fuel key ∧ (∀ k, key ≤ k → k < hg.skipBins fuel key → ¬ hg.Live k = true) ∧
      (hg.skipBins fuel key < keys p → hg.Live (hg.skipBins fuel key) = true) := by
  induction fuel generalizing key with
  | zero =>
      refine ⟨Nat.le_refl _, fun k hle hlt => absurd hlt (Nat.not_lt_of_le hle), fun hlt => ?_⟩
      rw [Nat.zero_mul, Nat.add_zero] at hfuel
      exact absurd hlt (Nat.not_lt_of_le hfuel)
  | succ fuel ih =>
      rw [skipBins, and_binsize]
      by_cases hcond : key < keys p ∧ key % binsize p = 0 ∧ hg.keyToCounter key = none
      · rw [if_pos hcond]
        have hstart' : (key + binsize p) % binsize p = 0 := by rwa [Nat.add_mod_right]
        have hfuel' : keys p ≤ key + binsize p + fuel * binsize p := by
          rw [Nat.succ_mul] at hfuel
          omega
        obtain ⟨hle, hskip, hend⟩ := ih hstart' (Nat.le_add_left _ _) hfuel'
        refine ⟨by omega, fun k hk hlt => ?_, hend⟩
        by_cases hbin : key + binsize p ≤ k
        · exact hskip k hbin hlt
        -- `k` is in the bin of `key`
        have hdiv : k / binsize p = key / binsize p := by
          refine Nat.div_eq_of_lt_le ?_ ?_
          · exact le_trans (Nat.div_mul_le_self _ _) hk
          · rw [Nat.succ_mul, Nat.div_mul_cancel (Nat.dvd_of_mod_eq_zero hstart)]
            omega
        have hnone : hg.bin (key / binsize p) = none := by
          simpa [keyToCounter] using hcond.2.2
        rw [Live, hdiv, hnone]
        simp only [Option.isSome_none, Bool.or_false, decide_eq_true_eq]
        omega
      · rw [if_neg hcond]
        refine ⟨Nat.le_refl _, fun k hle hlt => absurd hlt (Nat.not_lt_of_le hle), fun hlt => ?_⟩
        have hsome : hg.keyToCounter key ≠ none := fun hnone => hcond ⟨hlt, hstart, hnone⟩
        rw [Live, Bool.or_eq_true]
        refine Or.inr (Option.isSome_iff_ne_none.mpr fun hnone => hsome ?_)
        rw [keyToCounter, hnone]
        rfl

/-- **`hg64_next`** goes to the next key whose bin is there. -/
theorem hg64Next_spec {key : Nat} (hlive : hg.Live key = true) :
    key < hg.hg64Next key ∧ (∀ k, key < k → k < hg.hg64Next key → ¬ hg.Live k = true) ∧
      (hg.hg64Next key < keys p → hg.Live (hg.hg64Next key) = true) := by
  unfold hg64Next
  have hpos := binsize_pos p
  by_cases hstart : (key + 1) % binsize p = 0
  · have hfirst : binsize p ≤ key + 1 :=
      Nat.le_of_dvd (Nat.succ_pos _) (Nat.dvd_of_mod_eq_zero hstart)
    refine skipBins_spec bins hstart hfirst ?_
    have hkeys : keys p ≤ bins * binsize p := Nat.mul_le_mul_right _ (Nat.sub_le _ _)
    omega
  · have hnext : hg.skipBins bins (key + 1) = key + 1 := by
      rw [show bins = 63 + 1 from rfl, skipBins, and_binsize, if_neg fun h => hstart h.2.1]
    rw [hnext]
    refine ⟨Nat.lt_succ_self key, fun k hk hlt => absurd hk (by omega), fun _ => ?_⟩
    -- still in the bin of `key`
    have hdiv : (key + 1) / binsize p = key / binsize p := by
      rw [Nat.succ_div, if_neg fun hdvd => hstart (Nat.mod_eq_zero_of_dvd hdvd), Nat.add_zero]
    simp only [Live, Bool.or_eq_true, decide_eq_true_eq, hdiv] at hlive ⊢
    rcases hlive with hlt | hsome
    · left
      have : key + 1 ≠ binsize p := fun heq => hstart (by rw [heq, Nat.mod_self])
      omega
    · exact Or.inr hsome

theorem keysFrom_eq (fuel : Nat) {key : Nat} (hlive : key < keys p → hg.Live key = true)
    (hfuel : keys p - key < fuel) :
    hg.keysFrom fuel key = (List.range' key (keys p - key)).filter hg.Live := by
  induction fuel generalizing key with
  | zero => exact absurd hfuel (Nat.not_lt_zero _)
  | succ fuel ih =>
      rw [keysFrom]
      by_cases hkey : key < keys p
      · have hget : (hg.hg64Get key).isSome = true := by rw [hg64Get, if_pos hkey]; rfl
        obtain ⟨hlt, hskip, hnext⟩ := hg64Next_spec (hlive hkey)
        rw [if_pos hget, ih hnext (by omega)]
        have hcons : keys p - key = keys p - (key + 1) + 1 := by omega
        rw [hcons, List.range'_succ, List.filter_cons_of_pos (hlive hkey)]
        congr 1
        -- nothing is lost between `key` and the next key
        have hdead : ∀ n, key + 1 + n ≤ hg.hg64Next key →
            (List.range' (key + 1) n).filter hg.Live = [] := by
          intro n hn
          rw [List.filter_eq_nil_iff]
          intro k hk
          rw [List.mem_range'_1] at hk
          exact hskip k (by omega) (by omega)
        by_cases hend : hg.hg64Next key ≤ keys p
        · have hsplit : keys p - (key + 1) =
              (hg.hg64Next key - (key + 1)) + (keys p - hg.hg64Next key) := by omega
          rw [hsplit, ← List.range'_append_1, List.filter_append, hdead _ (by omega),
            List.nil_append]
          congr 2
          omega
        · rw [hdead _ (by omega), show keys p - hg.hg64Next key = 0 by omega]
          rfl
      · rw [hg64Get, if_neg hkey, show keys p - key = 0 by omega]
        rfl

/-- **The loop meets every key that has a counter**, in order. -/
theorem hg64Keys_eq (hg : Hg64 p) : hg.hg64Keys = (List.range (keys p)).filter hg.Live := by
  have hzero : 0 < keys p → hg.Live 0 = true := fun _ => by
    simp [Live, binsize_pos p]
  rw [hg64Keys, keysFrom_eq _ hzero (by omega), Nat.sub_zero, List.range_eq_range']

theorem filterMap_hg64Keys {α : Type} (hg : Hg64 p) {f : Nat → Option α}
    (hf : ∀ key, hg.getKeyCount key = 0 → f key = none) :
    hg.hg64Keys.filterMap f = (List.range (keys p)).filterMap f := by
  rw [hg64Keys_eq, List.filterMap_filter]
  refine List.filterMap_congr fun key _ => ?_
  split
  · rfl
  · rename_i hdead
    exact (hf key (getKeyCount_of_not_live hdead)).symm

/-! ### Merging and subtracting -/

/-- With the same `sigbits` each key is its own range: the counts are copied. -/
theorem hg64Merge_eq (target source : Hg64 p) :
    target.hg64Merge source =
      source.hg64Keys.foldl (fun hg key => hg.addKeyCount key (source.getKeyCount key)) target := by
  unfold hg64Merge
  refine List.foldl_ext _ _ _ fun target key hmem => ?_
  have hkey : key < keys p := by
    rw [hg64Keys_eq, List.mem_filter, List.mem_range] at hmem
    exact hmem.1
  dsimp only
  rw [valueToKey_minval target.valid hkey, valueToKey_maxval target.valid hkey, Nat.sub_self,
    Nat.add_sub_cancel_left]
  have hone : UInt64.ofNat (0 + 1) = 1 := rfl
  simp only [hone, List.range'_one, List.foldl_cons, List.foldl_nil, UInt64.div_one, UInt64.mod_one,
    UInt64.not_lt_zero, if_false, UInt64.add_zero]

/-- **`hg64_merge`** adds the counters. -/
theorem getKeyCount_hg64Merge (target source : Hg64 p) {key : Nat} (hkey : key < keys p) :
    (target.hg64Merge source).getKeyCount key =
      target.getKeyCount key + source.getKeyCount key := by
  have hnodup : source.hg64Keys.Nodup := by
    rw [hg64Keys_eq]
    exact List.nodup_range.filter _
  rw [hg64Merge_eq, getKeyCount_foldl hnodup]
  congr 1
  split
  · rfl
  · rename_i hmem
    rw [hg64Keys_eq, List.mem_filter, List.mem_range, not_and] at hmem
    exact (getKeyCount_of_not_live (hmem hkey)).symm

/-- **`hg64_diff`** subtracts them. -/
theorem getKeyCount_hg64Diff (a b diff : Hg64 p) {key : Nat} (hkey : key < keys p) :
    (a.hg64Diff b diff).getKeyCount key =
      diff.getKeyCount key + (a.getKeyCount key - b.getKeyCount key) := by
  unfold hg64Diff
  rw [getKeyCount_foldl List.nodup_range, if_pos (List.mem_range.mpr hkey)]

/-! ### What a histogram counts -/

/-- The counters are those of the values `xs`. -/
def Counts (hg : Hg64 p) (xs : List UInt64) : Prop :=
  ∀ key < keys p, hg.getKeyCount key = UInt64.ofNat (xs.countP fun x => valueToKey p x = key)

variable {xs ys : List UInt64} {s t : Hg64 p}

theorem counts_hg64Create (h : hg64Create p = some s) : s.Counts [] :=
  fun key _ => getKeyCount_hg64Create h key

theorem Counts.hg64Inc (h : s.Counts xs) (x : UInt64) : (s.hg64Inc x).Counts (xs ++ [x]) := by
  intro key hkey
  rw [Hg64.hg64Inc, getKeyCount_addKeyCount, h key hkey, List.countP_append, UInt64.ofNat_add]
  congr 1
  by_cases hx : valueToKey p x = key
  · rw [if_pos hx.symm, List.countP_singleton, if_pos (decide_eq_true hx)]
    rfl
  · rw [if_neg fun heq => hx heq.symm, List.countP_singleton, if_neg (by simpa using hx)]
    rfl

theorem Counts.hg64Merge (h : t.Counts xs) (h' : s.Counts ys) :
    (t.hg64Merge s).Counts (xs ++ ys) := by
  intro key hkey
  rw [getKeyCount_hg64Merge t s hkey, h key hkey, h' key hkey, List.countP_append, UInt64.ofNat_add]

theorem sum_countP (hp : ValidSigbits p) (xs : List UInt64) :
    ((List.range (keys p)).map fun key => xs.countP fun x => valueToKey p x = key).sum =
      xs.length := by
  induction xs with
  | nil => simp
  | cons x xs ih =>
      have hone : ((List.range (keys p)).map fun key => if valueToKey p x = key then 1 else 0).sum =
          1 := by
        rw [List.sum_map_ite, List.map_const', List.map_const', List.sum_replicate,
          List.sum_replicate, smul_zero, add_zero, smul_eq_mul, mul_one]
        have hcount := List.count_eq_one_of_mem List.nodup_range
          (List.mem_range.mpr (valueToKey_lt hp x))
        rw [List.count_eq_length_filter] at hcount
        rw [← hcount]
        congr 2
        funext key
        rw [Bool.eq_iff_iff, beq_iff_eq, decide_eq_true_eq]
        exact eq_comm
      simp only [List.countP_cons, decide_eq_true_eq]
      rw [List.sum_map_add, ih, hone, List.length_cons]

end Hg64

end Dnsperf
