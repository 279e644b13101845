import Mathlib.Data.List.Lex
import Mathlib.Tactic.Ring

/-!
# The key codec

`key.go` is not among the sources, so the key layout is modelled from the spec:
a one-byte header naming the record kind, followed by the record's integer
fields, each written as eight big-endian bytes.  Fixed widths make the store's
byte order the lexicographic order on the fields, which is why the snapshots of
one replica, or the bootstrap records of all replicas, form one key range.
-/

namespace TugboatLogdb

/-- A key or a value as the store holds it. -/
abbrev Bytes := List UInt8

instance uint8LtStrictTotalOrder : IsStrictTotalOrder UInt8 (· < ·) where
  trichotomous a b := by
    rcases Nat.lt_trichotomy a.toNat b.toNat with h | h | h
    · exact Or.inl h
    · exact Or.inr (Or.inl (UInt8.toNat.inj h))
    · exact Or.inr (Or.inr h)
  irrefl := UInt8.lt_irrefl
  trans _ _ _ := UInt8.lt_trans

/-- `bytes.Compare(a, b) < 0`: the order in which the store keeps and scans keys. -/
def KeyLt (a b : Bytes) : Prop := List.Lex (· < ·) a b

instance : DecidableRel KeyLt := fun a b ↦ List.Lex.decidableRel (· < ·) a b

theorem KeyLt.irrefl (a : Bytes) : ¬ KeyLt a a := irrefl_of (List.Lex (· < ·)) a

theorem KeyLt.trans {a b c : Bytes} (h : KeyLt a b) (h' : KeyLt b c) : KeyLt a c :=
  trans_of (List.Lex (· < ·)) h h'

theorem KeyLt.trichotomous (a b : Bytes) : KeyLt a b ∨ a = b ∨ KeyLt b a :=
  trichotomous_of (List.Lex (· < ·)) a b

theorem KeyLt.asymm {a b : Bytes} (h : KeyLt a b) : ¬ KeyLt b a :=
  fun h' ↦ KeyLt.irrefl a (h.trans h')

/-! ## Lexicographic order on lists -/

theorem lex_cons_cons_iff {α : Type} {r : α → α → Prop} {a b : α} {l m : List α} :
    List.Lex r (a :: l) (b :: m) ↔ r a b ∨ a = b ∧ List.Lex r l m := by
  constructor
  · intro h
    cases h with
    | cons h => exact Or.inr ⟨rfl, h⟩
    | rel h => exact Or.inl h
  · rintro (h | ⟨rfl, h⟩)
    · exact .rel h
    · exact .cons h

/-- Comparing two concatenations whose first parts have one length compares the
first parts, and the second parts only where the first parts agree. -/
theorem lex_append_iff {α : Type} {r : α → α → Prop} {s s' t t' : List α}
    (h : s.length = s'.length) :
    List.Lex r (s ++ t) (s' ++ t') ↔ List.Lex r s s' ∨ s = s' ∧ List.Lex r t t' := by
  induction s generalizing s' with
  | nil =>
      rw [List.length_nil, eq_comm, List.length_eq_zero] at h
      subst h
      simp
  | cons a s ih =>
      cases s' with
      | nil => simp at h
      | cons b s' =>
          simp only [List.cons_append, lex_cons_cons_iff, ih (by simpa using h),
            List.cons.injEq]
          tauto

/-! ## Big-endian integers -/

/-- The `n` low bytes of `v`, most significant first: `binary.BigEndian.PutUint64`
is the case `n = 8`. -/
def bigEndian : Nat → Nat → Bytes
  | 0, _ => []
  | n + 1, v => UInt8.ofNat (v / 256 ^ n) :: bigEndian n (v % 256 ^ n)

@[simp] theorem length_bigEndian (n v : Nat) : (bigEndian n v).length = n := by
  induction n generalizing v <;> simp [bigEndian, *]

/-- Big-endian bytes read back as a number. -/
def readBigEndian (b : Bytes) : Nat := b.foldl (fun acc x ↦ acc * 256 + x.toNat) 0

theorem toNat_byte {x n : Nat} (h : x < 256 ^ (n + 1)) :
    (UInt8.ofNat (x / 256 ^ n)).toNat = x / 256 ^ n :=
  UInt8.toNat_ofNat_of_lt (Nat.div_lt_of_lt_mul (by rw [pow_succ] at h; exact h))

theorem foldl_bigEndian {n v : Nat} (hv : v < 256 ^ n) (acc : Nat) :
    (bigEndian n v).foldl (fun acc x ↦ acc * 256 + x.toNat) acc = acc * 256 ^ n + v := by
  induction n generalizing v acc with
  | zero => simp_all [bigEndian]
  | succ n ih =>
      rw [bigEndian, List.foldl_cons, toNat_byte hv,
        ih (Nat.mod_lt _ (Nat.pow_pos (by decide)))]
      conv_rhs => rw [← Nat.div_add_mod' v (256 ^ n)]
      ring

theorem readBigEndian_bigEndian {n v : Nat} (hv : v < 256 ^ n) :
    readBigEndian (bigEndian n v) = v := by
  simp [readBigEndian, foldl_bigEndian hv]

/-- A number below `B²`-style bounds compares by its quotient, then its remainder. -/
theorem lt_iff_div_lt_or {B v w : Nat} (hB : 0 < B) :
    v < w ↔ v / B < w / B ∨ v / B = w / B ∧ v % B < w % B := by
  have hv := Nat.div_add_mod v B
  have hw := Nat.div_add_mod w B
  have hvB := Nat.mod_lt v hB
  have hwB := Nat.mod_lt w hB
  constructor
  · intro h
    rcases Nat.lt_trichotomy (v / B) (w / B) with h' | h' | h'
    · exact Or.inl h'
    · rw [h'] at hv
      exact Or.inr ⟨h', by omega⟩
    · have := Nat.mul_le_mul_left B h'
      rw [Nat.mul_succ] at this
      omega
  · rintro (h' | ⟨h', h''⟩)
    · have := Nat.mul_le_mul_left B h'
      rw [Nat.mul_succ] at this
      omega
    · rw [h'] at hv
      omega

/-- Fixed-width big-endian bytes compare as the numbers they encode. -/
theorem bigEndian_lt_iff {n v w : Nat} (hv : v < 256 ^ n) (hw : w < 256 ^ n) :
    KeyLt (bigEndian n v) (bigEndian n w) ↔ v < w := by
  induction n generalizing v w with
  | zero => simp_all [bigEndian, KeyLt]
  | succ n ih =>
      have hB : 0 < 256 ^ n := Nat.pow_pos (by decide)
      have hbyte : ∀ a b : UInt8, a = b ↔ a.toNat = b.toNat :=
        fun _ _ ↦ ⟨congrArg _, UInt8.toNat.inj⟩
      rw [@lt_iff_div_lt_or (256 ^ n) v w hB, ← ih (Nat.mod_lt _ hB) (Nat.mod_lt _ hB),
        ← toNat_byte hv, ← toNat_byte hw, ← hbyte]
      exact lex_cons_cons_iff

/-! ## Eight-byte fields -/

/-- Go's `math.MaxUint64`. -/
def MaxUint64 : UInt64 := 18446744073709551615

theorem u64_lt_iff {a b : UInt64} : a < b ↔ a.toNat < b.toNat := Iff.rfl

theorem u64_eq_iff {a b : UInt64} : a = b ↔ a.toNat = b.toNat :=
  ⟨congrArg _, UInt64.toNat.inj⟩

theorem toNat_le_MaxUint64 (a : UInt64) : a.toNat ≤ MaxUint64.toNat :=
  Nat.le_pred_of_lt a.toNat_lt_size

/-- `binary.BigEndian.PutUint64` into a fresh eight-byte slice. -/
def putUint64 (v : UInt64) : Bytes := bigEndian 8 v.toNat

/-- `binary.BigEndian.Uint64`: the first eight bytes as one big-endian number. -/
def uint64 (b : Bytes) : UInt64 := UInt64.ofNat (readBigEndian (b.take 8))

@[simp] theorem length_putUint64 (v : UInt64) : (putUint64 v).length = 8 := by
  simp [putUint64]

theorem uint64_putUint64_append (v : UInt64) (rest : Bytes) :
    uint64 (putUint64 v ++ rest) = v := by
  rw [uint64, List.take_left' (length_putUint64 v), putUint64,
    readBigEndian_bigEndian v.toNat_lt_size]
  exact UInt64.toNat.inj (UInt64.toNat_ofNat_of_lt v.toNat_lt_size)

@[simp] theorem uint64_putUint64 (v : UInt64) : uint64 (putUint64 v) = v := by
  simpa using uint64_putUint64_append v []

theorem putUint64_inj {v w : UInt64} : putUint64 v = putUint64 w ↔ v = w :=
  ⟨fun h ↦ by rw [← uint64_putUint64 v, h, uint64_putUint64], congrArg _⟩

theorem putUint64_lt_iff {v w : UInt64} : KeyLt (putUint64 v) (putUint64 w) ↔ v < w :=
  bigEndian_lt_iff v.toNat_lt_size w.toNat_lt_size

/-- Modelled from the spec: the fields of a key, eight big-endian bytes each. -/
def fieldBytes (fields : List UInt64) : Bytes := fields.flatMap putUint64

@[simp] theorem fieldBytes_nil : fieldBytes [] = [] := rfl

@[simp] theorem fieldBytes_cons (v : UInt64) (fields : List UInt64) :
    fieldBytes (v :: fields) = putUint64 v ++ fieldBytes fields := rfl

theorem fieldBytes_inj : ∀ {fs gs : List UInt64}, fieldBytes fs = fieldBytes gs → fs = gs
  | [], [], _ => rfl
  | [], _ :: _, h => by have := congrArg List.length h; simp at this; omega
  | _ :: _, [], h => by have := congrArg List.length h; simp at this
  | v :: fs, w :: gs, h => by
      obtain ⟨hvw, hfg⟩ := List.append_inj h (by simp)
      rw [putUint64_inj.mp hvw, fieldBytes_inj hfg]

/-- Byte order on equally many fields is the lexicographic order of their values. -/
theorem fieldBytes_lt_iff :
    ∀ {fs gs : List UInt64}, fs.length = gs.length →
      (KeyLt (fieldBytes fs) (fieldBytes gs) ↔ List.Lex (· < ·) fs gs)
  | [], [], _ => by simp [KeyLt]
  | v :: fs, w :: gs, h => by
      rw [fieldBytes_cons, fieldBytes_cons, KeyLt, lex_append_iff (by simp), ← KeyLt,
        ← KeyLt, putUint64_lt_iff, putUint64_inj, fieldBytes_lt_iff (by simpa using h),
        lex_cons_cons_iff]

/-! ## Keys of the record kinds -/

/-- Modelled from the spec: the record kinds of the key space, one header byte each. -/
inductive KeyKind
  | entry
  | state
  | maxIndex
  | bootstrap
  | snapshot
deriving DecidableEq, Repr

/-- Modelled from the spec: the header byte that starts every key of a kind. -/
def KeyKind.header : KeyKind → UInt8
  | entry => 1
  | state => 2
  | maxIndex => 3
  | bootstrap => 5
  | snapshot => 6

theorem KeyKind.header_inj {a b : KeyKind} : a.header = b.header ↔ a = b := by
  cases a <;> cases b <;> decide

/-- Modelled from the spec: a key of one kind, the header byte and then each field in
eight big-endian bytes. -/
def key (kind : KeyKind) (fields : List UInt64) : Bytes :=
  kind.header :: fieldBytes fields

theorem key_inj {k k' : KeyKind} {fs gs : List UInt64} :
    key k fs = key k' gs ↔ k = k' ∧ fs = gs := by
  constructor
  · intro h
    obtain ⟨hh, hf⟩ := List.cons.inj h
    exact ⟨KeyKind.header_inj.mp hh, fieldBytes_inj hf⟩
  · rintro ⟨rfl, rfl⟩
    rfl

theorem key_lt_key_of_header_lt {k k' : KeyKind} (h : k.header < k'.header)
    (fs gs : List UInt64) : KeyLt (key k fs) (key k' gs) :=
  .rel h

theorem key_lt_key_iff {k : KeyKind} {fs gs : List UInt64} (h : fs.length = gs.length) :
    KeyLt (key k fs) (key k gs) ↔ List.Lex (· < ·) fs gs := by
  rw [key, key, KeyLt, lex_cons_cons_iff, ← KeyLt, fieldBytes_lt_iff h]
  simp

/-- Modelled from the spec: `Key.SetEntryKey`.  The key setters are reducible, so that
what is proved of `key` applies to them. -/
@[reducible] def setEntryKey (clusterID nodeID index : UInt64) : Bytes :=
  key .entry [clusterID, nodeID, index]

/-- Modelled from the spec: `Key.SetStateKey`. -/
@[reducible] def setStateKey (clusterID nodeID : UInt64) : Bytes :=
  key .state [clusterID, nodeID]

/-- Modelled from the spec: `Key.SetMaxIndexKey`. -/
@[reducible] def setMaxIndexKey (clusterID nodeID : UInt64) : Bytes :=
  key .maxIndex [clusterID, nodeID]

/-- Modelled from the spec: `Key.setBootstrapKey`. -/
@[reducible] def setBootstrapKey (clusterID nodeID : UInt64) : Bytes :=
  key .bootstrap [clusterID, nodeID]

/-- Modelled from the spec: `Key.setSnapshotKey`. -/
@[reducible] def setSnapshotKey (clusterID nodeID index : UInt64) : Bytes :=
  key .snapshot [clusterID, nodeID, index]

/-- Keys of different kinds never meet; through the reducible setters this covers every
pair of setters of different kinds. -/
@[simp] theorem key_ne_of_kind_ne {k k' : KeyKind} (h : k ≠ k') (fs gs : List UInt64) :
    key k fs ≠ key k' gs :=
  fun e ↦ h (key_inj.mp e).1

theorem setEntryKey_inj {c n i c' n' i' : UInt64} :
    setEntryKey c n i = setEntryKey c' n' i' ↔ c = c' ∧ n = n' ∧ i = i' := by
  simp [setEntryKey, key_inj]

theorem setSnapshotKey_inj {c n i c' n' i' : UInt64} :
    setSnapshotKey c n i = setSnapshotKey c' n' i' ↔ c = c' ∧ n = n' ∧ i = i' := by
  simp [setSnapshotKey, key_inj]

theorem setBootstrapKey_inj {c n c' n' : UInt64} :
    setBootstrapKey c n = setBootstrapKey c' n' ↔ c = c' ∧ n = n' := by
  simp [setBootstrapKey, key_inj]

/-- Modelled from the spec: `parseNodeInfoKey`, the cluster and node ID of a bootstrap
key. -/
def parseNodeInfoKey (k : Bytes) : UInt64 × UInt64 :=
  (uint64 (k.drop 1), uint64 (k.drop 9))

theorem parseNodeInfoKey_setBootstrapKey (clusterID nodeID : UInt64) :
    parseNodeInfoKey (setBootstrapKey clusterID nodeID) = (clusterID, nodeID) := by
  simp [parseNodeInfoKey, setBootstrapKey, key, uint64_putUint64_append,
    List.drop_left' (length_putUint64 clusterID)]

/-! ## Key ranges -/

theorem u64_le_iff {a b : UInt64} : a ≤ b ↔ a.toNat ≤ b.toNat := Iff.rfl

/-- Modelled from the spec: whether `k` lies in the scan from `fk` to `lk`, inclusive of
`lk` when `inc`, the bounds of `KV.IterateValue`. -/
def InRange (fk lk : Bytes) (inc : Bool) (k : Bytes) : Prop :=
  ¬ KeyLt k fk ∧ if inc then ¬ KeyLt lk k else KeyLt k lk

instance (fk lk : Bytes) (inc : Bool) (k : Bytes) : Decidable (InRange fk lk inc k) :=
  inferInstanceAs (Decidable (¬ KeyLt k fk ∧ if inc then ¬ KeyLt lk k else KeyLt k lk))

/-- A scan between two keys of one kind reaches no key of another kind. -/
theorem not_inRange_of_kind_ne {k k' : KeyKind} (h : k' ≠ k) (lo hi fs : List UInt64)
    (inc : Bool) : ¬ InRange (key k lo) (key k hi) inc (key k' fs) := by
  rintro ⟨hlo, hhi⟩
  rcases Nat.lt_trichotomy k'.header.toNat k.header.toNat with hlt | heq | hgt
  · exact hlo (key_lt_key_of_header_lt hlt fs lo)
  · exact h (KeyKind.header_inj.mp (UInt8.toNat.inj heq))
  · have hk := key_lt_key_of_header_lt hgt hi fs
    cases inc
    · exact hk.asymm hhi
    · exact hhi hk

theorem inRange_key_iff (k : KeyKind) (lo hi fs : List UInt64) (hlo : lo.length = fs.length)
    (hhi : hi.length = fs.length) :
    InRange (key k lo) (key k hi) true (key k fs) ↔
      ¬ List.Lex (· < ·) fs lo ∧ ¬ List.Lex (· < ·) hi fs := by
  rw [InRange, if_pos rfl, key_lt_key_iff hlo.symm, key_lt_key_iff hhi]

/-- The scan over one replica's keys of a kind whose last field is an index. -/
theorem inRange_key3_iff {k k' : KeyKind} {c n lo hi : UInt64} {fs : List UInt64}
    (hfs : k' = k → fs.length = 3) :
    InRange (key k [c, n, lo]) (key k [c, n, hi]) true (key k' fs) ↔
      k' = k ∧ ∃ i, fs = [c, n, i] ∧ lo ≤ i ∧ i ≤ hi := by
  by_cases hk : k' = k
  · subst hk
    match fs, hfs rfl with
    | [c', n', i], _ =>
        rw [inRange_key_iff k' [c, n, lo] [c, n, hi] [c', n', i] rfl rfl]
        simp only [lex_cons_cons_iff, List.Lex.not_nil_right, u64_lt_iff, u64_eq_iff,
          u64_le_iff, List.cons.injEq, and_true, true_and, and_false, or_false]
        constructor
        · intro h
          exact ⟨i, by omega, by omega, by omega⟩
        · rintro ⟨j, ⟨hc, hn, hj⟩, hlo, hhi⟩
          omega
  · simp only [hk, false_and, iff_false]
    exact not_inRange_of_kind_ne hk _ _ _ _

theorem not_lex_lt_zeros : ∀ fs : List UInt64, ¬ List.Lex (· < ·) fs (List.replicate fs.length 0)
  | [] => List.Lex.not_nil_right _ _
  | v :: fs => by
      rw [List.length_cons, List.replicate_succ, lex_cons_cons_iff, u64_lt_iff]
      exact fun h ↦ h.elim (Nat.not_lt_zero _) fun h ↦ not_lex_lt_zeros fs h.2

theorem not_lex_maxes_lt : ∀ fs : List UInt64,
    ¬ List.Lex (· < ·) (List.replicate fs.length MaxUint64) fs
  | [] => List.Lex.not_nil_right _ _
  | v :: fs => by
      rw [List.length_cons, List.replicate_succ, lex_cons_cons_iff, u64_lt_iff]
      exact fun h ↦ h.elim (Nat.not_lt_of_le (toNat_le_MaxUint64 v)) fun h ↦
        not_lex_maxes_lt fs h.2

/-- The scan from the least to the greatest key of a kind with `m` fields reaches every
key of that kind. -/
theorem inRange_key_all_iff {k k' : KeyKind} {m : Nat} {fs : List UInt64}
    (hfs : k' = k → fs.length = m) :
    InRange (key k (List.replicate m 0)) (key k (List.replicate m MaxUint64)) true (key k' fs) ↔
      k' = k := by
  by_cases hk : k' = k
  · subst hk
    obtain rfl := hfs rfl
    rw [inRange_key_iff k' _ _ fs (List.length_replicate _ _) (List.length_replicate _ _)]
    exact iff_of_true ⟨not_lex_lt_zeros fs, not_lex_maxes_lt fs⟩ rfl
  · exact iff_of_false (not_inRange_of_kind_ne hk _ _ _ _) hk

theorem inRange_key2_iff {k k' : KeyKind} {fs : List UInt64} (hfs : k' = k → fs.length = 2) :
    InRange (key k [0, 0]) (key k [MaxUint64, MaxUint64]) true (key k' fs) ↔ k' = k :=
  @inRange_key_all_iff k k' 2 fs hfs

theorem inRange_key3_all_iff {k k' : KeyKind} {fs : List UInt64}
    (hfs : k' = k → fs.length = 3) :
    InRange (key k [0, 0, 0]) (key k [MaxUint64, MaxUint64, MaxUint64]) true (key k' fs) ↔
      k' = k :=
  @inRange_key_all_iff k k' 3 fs hfs

end TugboatLogdb
