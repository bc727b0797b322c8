import DiceNotation.Proofs.Settings.RoundTrip
import Mathlib.Algebra.Ring.Int.Defs

/-!
# Which data are settings

Settings are read from no data, or from a dictionary whose entries could each be taken alone: whether an
entry is taken does not depend on the ones before it. So the entry that a dictionary is refused for is the
first one at fault, and what is wrong with an entry is looked for in one order: its key, the kind of its
value, its sign, its size (`Objects`). That is what a user is told, unless the message cannot show it
(`Fault.report_eq_fault_iff`): a tuple as a key is taken for the values that the message shows, and a number
with too many digits has no text. What was read has the values of the entries and the defaults for the rest,
and is read again from its own dictionary (`ofData_outcome`).
-/

namespace DiceNotation.Settings

variable {s t : Settings} {entry : Data × Data} {e : Error} {fault : Fault}

/-! ## One entry -/

/-- An entry that names a setting and has a value for it: an integer that is not negative, and for the limit
and the seed fits in 64 bits. The seed may also be nothing. -/
def Proper (entry : Data × Data) : Prop :=
  ∃ f : Field, entry.1 = .text f.name ∧
    ((f = .seed ∧ entry.2 = .null) ∨
      ∃ v : Int, entry.2 = .int v ∧ 0 ≤ v ∧ (f = .rollLimit ∨ f = .seed → v ≤ 2 ^ 64 - 1))

/-- What is wrong with an entry. A truth value is no integer. -/
inductive Objects : Data × Data → Fault → Prop
  /-- The key is no name of a setting, whatever the value. -/
  | unknown {key value : Data} (h : ∀ f : Field, key ≠ .text f.name) :
    Objects (key, value) (.unknown key)
  /-- The value is no integer, and not the nothing that a seed can be. -/
  | notInteger {f : Field} {value : Data} (hseed : f = .seed → value ≠ .null)
    (h : ∀ v : Int, value ≠ .int v) : Objects (.text f.name, value) (.notInteger f value)
  /-- The value is below zero. -/
  | negative {f : Field} {v : Int} (h : v < 0) : Objects (.text f.name, .int v) (.negative f v)
  /-- The value does not fit in 64 bits where it has to. -/
  | tooLarge {f : Field} {v : Int} (hsign : 0 ≤ v) (hf : f = .rollLimit ∨ f = .seed) (h : 2 ^ 64 - 1 < v) :
    Objects (.text f.name, .int v) (.tooLarge f v)

/-- The settings that have to fit in 64 bits are the limit and the seed. -/
theorem Field.isWord_iff (f : Field) : f.isWord = true ↔ f = .rollLimit ∨ f = .seed := by
  cases f <;> decide

/-- Too large is what does not fit in 64 bits where it has to. -/
theorem Field.tooLarge_iff (f : Field) (v : Int) : (f.isWord && decide (v ≥ wordCount)) = true ↔
    (f = .rollLimit ∨ f = .seed) ∧ 2 ^ 64 - 1 < v := by
  have hcount : (wordCount : Int) = 2 ^ 64 := rfl
  rw [Bool.and_eq_true, decide_eq_true_eq, f.isWord_iff, hcount]
  exact and_congr_right fun _ => Int.sub_one_lt_iff.symm

/-- What a setting can be, as an integer in bounds. -/
theorem Field.accepts_iff {f : Field} {value : Data} :
    f.Accepts value ↔ (f = .seed ∧ value = .null) ∨
      ∃ v : Int, value = .int v ∧ 0 ≤ v ∧ (f = .rollLimit ∨ f = .seed → v ≤ 2 ^ 64 - 1) := by
  have hcount : (wordCount : Int) = 2 ^ 64 := rfl
  rw [Field.Accepts, f.isWord_iff]
  refine or_congr_right ⟨?_, ?_⟩
  · rintro ⟨v, rfl, hfits⟩
    refine ⟨v, rfl, Int.natCast_nonneg v, fun hf => ?_⟩
    have := hfits hf
    omega
  · rintro ⟨v, rfl, hsign, hfits⟩
    refine ⟨v.toNat, by rw [Int.toNat_of_nonneg hsign], fun hf => ?_⟩
    have := hfits hf
    omega

/-- A proper entry is taken whatever the settings are, and no other one is. -/
theorem exists_enter_eq_ok_iff (s : Settings) (entry : Data × Data) :
    (∃ t, s.enter entry = .ok t) ↔ Proper entry := by
  constructor
  · rintro ⟨t, h⟩
    obtain ⟨f, hkey, hset⟩ := exists_set_of_enter h
    exact ⟨f, hkey, Field.accepts_iff.1 (accepts_of_set_eq_ok hset)⟩
  · obtain ⟨key, value⟩ := entry
    rintro ⟨f, rfl, hvalue⟩
    obtain ⟨t, ht, -⟩ := exists_set_eq_ok (Field.accepts_iff.2 hvalue) s
    exact ⟨t, by rw [enter_name, ht]⟩

/-- A value that is refused has something wrong with it, which is reported. -/
theorem exists_objects_of_set_eq_error {f : Field} {value : Data} (h : s.set f value = .error e) :
    ∃ fault, Objects (.text f.name, value) fault ∧ e = fault.report := by
  unfold set at h
  split at h
  · cases h
  · next v =>
    -- An integer can only be out of bounds.
    split at h
    · next hneg => exact ⟨_, .negative hneg, (Except.error.inj h).symm⟩
    · next hnonneg =>
      split at h
      · next hlarge =>
        obtain ⟨hf, hlt⟩ := (f.tooLarge_iff v).1 hlarge
        exact ⟨_, .tooLarge (Int.not_lt.1 hnonneg) hf hlt, (Except.error.inj h).symm⟩
      · cases h
  · next hint hseed => exact ⟨_, .notInteger hseed hint, (Except.error.inj h).symm⟩

/-- What has something wrong with it is refused with a report on that, whatever the settings are. -/
theorem Objects.enter_eq_error (h : Objects entry fault) (s : Settings) :
    s.enter entry = .error fault.report := by
  cases h with
  | unknown hkey =>
    unfold enter
    split
    · next key _ heq =>
      obtain ⟨rfl, rfl⟩ := Prod.mk.inj heq
      cases hf : Field.ofName? key with
      | none => rfl
      | some f => exact absurd (congrArg Data.text (Field.name_of_ofName? hf).symm) (hkey f)
    · next heq =>
      obtain ⟨rfl, rfl⟩ := Prod.mk.inj heq
      rfl
  | notInteger hseed hint =>
    rw [enter_name]
    unfold set
    split
    · exact absurd rfl (hseed rfl)
    · exact absurd rfl (hint _)
    · rfl
  | negative hneg =>
    rw [enter_name, set, if_pos hneg]
  | @tooLarge f v hsign hf hlarge =>
    rw [enter_name, set, if_neg (Int.not_lt.2 hsign), if_pos ((f.tooLarge_iff v).2 ⟨hf, hlarge⟩)]

/-- An entry is refused whatever the settings are, with a report on what is wrong with it. -/
theorem enter_eq_error_iff (s : Settings) (entry : Data × Data) (e : Error) :
    s.enter entry = .error e ↔ ∃ fault, Objects entry fault ∧ e = fault.report := by
  constructor
  · intro h
    unfold enter at h
    split at h
    · next key value =>
      split at h
      · next f hf =>
        rw [← Field.name_of_ofName? hf]
        exact exists_objects_of_set_eq_error h
      · next hnone =>
        refine ⟨_, .unknown fun f hkey => ?_, (Except.error.inj h).symm⟩
        rw [Data.text.inj hkey, Field.ofName?_name] at hnone
        cases hnone
    · next key value hkey =>
      exact ⟨_, .unknown fun f heq => hkey f.name heq, (Except.error.inj h).symm⟩
  · rintro ⟨fault, hobjects, rfl⟩
    exact hobjects.enter_eq_error s

/-! ## All entries -/

/-- Entries that do not name a setting leave it alone. -/
theorem get_of_foldlM_enter {entries : List (Data × Data)} {f : Field}
    (hf : ∀ value, (.text f.name, value) ∉ entries) (h : entries.foldlM enter s = .ok t) :
    t.get f = s.get f := by
  refine foldlM_keeps (P := fun u => u.get f = s.get f) ?_ rfl h
  intro entry hentry u u' hu henter
  obtain ⟨g, hkey, hset⟩ := exists_set_of_enter henter
  have hne : f ≠ g := by
    rintro rfl
    rw [← Prod.eta entry, hkey] at hentry
    exact hf _ hentry
  rw [get_of_set_eq_ok hset, if_neg hne, hu]

/-- A setting has the value of the last entry that names it. -/
theorem get_of_foldlM_enter_last {before after : List (Data × Data)} {f : Field} {value : Data}
    (hafter : ∀ w, (.text f.name, w) ∉ after)
    (h : (before ++ (.text f.name, value) :: after).foldlM enter s = .ok t) : t.get f = value := by
  rw [List.foldlM_append] at h
  obtain ⟨u, -, hrest⟩ := bind_eq_ok_iff.1 h
  rw [List.foldlM_cons, enter_name] at hrest
  obtain ⟨u', hset, hrest⟩ := bind_eq_ok_iff.1 hrest
  rw [get_of_foldlM_enter hafter hrest, get_of_set_eq_ok hset, if_pos rfl]

/-! ## Data -/

/-- What is neither nothing nor a dictionary is refused. -/
theorem ofData_of_ne {d : Data} (hnull : d ≠ .null) (hdict : ∀ entries, d ≠ .dict entries) :
    ofData d = .error (Fault.notMapping d).report := by
  unfold ofData
  split
  · exact absurd rfl hnull
  · exact absurd rfl (hdict _)
  · rfl

/-- Settings are read from nothing, and from a dictionary of proper entries. -/
theorem exists_ofData_eq_ok_iff (d : Data) : (∃ s, ofData d = .ok s) ↔
    d = .null ∨ ∃ entries, d = .dict entries ∧ ∀ entry ∈ entries, Proper entry := by
  have hfold : ∀ entries : List (Data × Data),
      (∃ s, ofData (.dict entries) = .ok s) ↔ ∀ entry ∈ entries, Proper entry :=
    fun entries => exists_foldlM_eq_ok_iff exists_enter_eq_ok_iff {}
  constructor
  · intro h
    by_cases hnull : d = .null
    · exact .inl hnull
    by_cases hdict : ∃ entries, d = .dict entries
    · obtain ⟨entries, rfl⟩ := hdict
      exact .inr ⟨entries, rfl, (hfold entries).1 h⟩
    · obtain ⟨s, hs⟩ := h
      rw [ofData_of_ne hnull (not_exists.1 hdict)] at hs
      cases hs
  · rintro (rfl | ⟨entries, rfl, hproper⟩)
    · exact ⟨{}, rfl⟩
    · exact (hfold entries).2 hproper

/-- What data are refused for: they are no dictionary, or there is something wrong with an entry behind
proper ones. -/
inductive FirstFault : Data → Fault → Prop
  /-- There is neither nothing nor a dictionary. -/
  | notMapping {d : Data} (hnull : d ≠ .null) (hdict : ∀ entries, d ≠ .dict entries) :
    FirstFault d (.notMapping d)
  /-- The entry is the first one that is not proper. -/
  | entry {before : List (Data × Data)} {entry : Data × Data} {fault : Fault}
    (hbefore : ∀ x ∈ before, Proper x) (h : Objects entry fault) (after : List (Data × Data)) :
    FirstFault (.dict (before ++ entry :: after)) fault

/-- Data are refused with a report on their first fault. -/
theorem ofData_eq_error_iff (d : Data) (e : Error) :
    ofData d = .error e ↔ ∃ fault, FirstFault d fault ∧ e = fault.report := by
  have hfold : ∀ entries : List (Data × Data), ofData (.dict entries) = .error e ↔
      ∃ before entry after, entries = before ++ entry :: after ∧
        (∀ x ∈ before, Proper x) ∧ ∃ fault, Objects entry fault ∧ e = fault.report :=
    fun entries => foldlM_eq_error_iff exists_enter_eq_ok_iff enter_eq_error_iff {} e
  constructor
  · intro h
    by_cases hnull : d = .null
    · subst hnull
      cases h
    by_cases hdict : ∃ entries, d = .dict entries
    · obtain ⟨entries, rfl⟩ := hdict
      obtain ⟨before, entry, after, rfl, hbefore, fault, hentry, he⟩ := (hfold entries).1 h
      exact ⟨fault, .entry hbefore hentry after, he⟩
    · have hrefused := ofData_of_ne hnull (not_exists.1 hdict)
      rw [hrefused] at h
      exact ⟨_, .notMapping hnull (not_exists.1 hdict), (Except.error.inj h).symm⟩
  · rintro ⟨fault, hfault, rfl⟩
    cases hfault with
    | notMapping hnull hdict => exact ofData_of_ne hnull hdict
    | entry hbefore hentry after => exact (hfold _).2 ⟨_, _, after, rfl, hbefore, fault, hentry, rfl⟩

/-- No value is the only item of itself. -/
theorem ne_tuple_singleton (d : Data) : d ≠ .tuple [d] := by
  intro h
  have hsize := congrArg sizeOf h
  simp at hsize
  omega

/-- A fault is what is reported unless it is about a key that is a tuple, or a number with too many digits would
have to be shown. -/
theorem Fault.report_eq_fault_iff (fault : Fault) : fault.report = .fault fault ↔
    (∀ items, fault ≠ .unknown (.tuple items)) ∧ fault.shown.hasLong = false := by
  have hfill : fault.fill = .fault fault ↔ fault.shown.hasLong = false := by
    rw [fill]
    cases fault.shown.hasLong <;> simp
  unfold report
  split
  · exact iff_of_false (fun h => by cases h) fun h => h.1 _ rfl
  · next key =>
    -- The message names the item of the tuple for the tuple.
    refine iff_of_false (fun h => ?_) fun h => h.1 _ rfl
    rw [fill] at h
    split at h
    · cases h
    · exact ne_tuple_singleton key (Fault.unknown.inj (Error.fault.inj h))
  · next key _ _ =>
    refine iff_of_false (fun h => ?_) fun h => h.1 _ rfl
    split at h <;> cases h
  · next hnil hone hmore =>
    rw [hfill]
    refine (and_iff_right fun items => ?_).symm
    rintro rfl
    cases items with
    | nil => exact hnil rfl
    | cons key rest =>
      cases rest with
      | nil => exact hone key rfl
      | cons _ _ => exact hmore key _ rfl

/-- Settings that were read have the values of the entries, and the defaults for what no entry names. -/
theorem get_of_ofData {d : Data} (h : ofData d = .ok s) :
    ∃ entries, (d = .null ∧ entries = [] ∨ d = .dict entries) ∧ ∀ f : Field,
      ((∀ value, (.text f.name, value) ∉ entries) → s.get f = ({} : Settings).get f) ∧
      ∀ value before after, entries = before ++ (.text f.name, value) :: after →
        (∀ w, (.text f.name, w) ∉ after) → s.get f = value := by
  -- Nothing is read as a dictionary without entries is.
  obtain ⟨entries, hentries, hfold⟩ : ∃ entries, (d = .null ∧ entries = [] ∨ d = .dict entries) ∧
      entries.foldlM enter {} = .ok s := by
    rcases (exists_ofData_eq_ok_iff d).1 ⟨s, h⟩ with rfl | ⟨entries, rfl, -⟩
    · exact ⟨[], .inl ⟨rfl, rfl⟩, h⟩
    · exact ⟨entries, .inr rfl, h⟩
  refine ⟨entries, hentries, fun f => ⟨fun hf => get_of_foldlM_enter hf hfold, ?_⟩⟩
  rintro value before after rfl hafter
  exact get_of_foldlM_enter_last hafter hfold

/-- Data are settings exactly when they are nothing or a dictionary of proper entries. The settings then have
the values of the entries, of the last one where a name is given again, and the defaults where there is none;
and they are read again from their own dictionary. What is no dictionary is refused as a whole, and a
dictionary for the first of its entries that is not proper. What is told is that fault, unless it is a key that
is a tuple, or a number with more digits than are converted would have to be shown. -/
theorem ofData_outcome (d : Data) :
    ((∃ s, ofData d = .ok s) ↔
      d = .null ∨ ∃ entries, d = .dict entries ∧ ∀ entry ∈ entries, Proper entry) ∧
    (∀ s, ofData d = .ok s →
      (∃ entries, (d = .null ∧ entries = [] ∨ d = .dict entries) ∧ ∀ f : Field,
        ((∀ value, (.text f.name, value) ∉ entries) → s.get f = ({} : Settings).get f) ∧
        ∀ value before after, entries = before ++ (.text f.name, value) :: after →
          (∀ w, (.text f.name, w) ∉ after) → s.get f = value) ∧
      ofData s.toData = .ok s) ∧
    (∀ e, ofData d = .error e ↔ ∃ fault, FirstFault d fault ∧ e = fault.report) ∧
    ∀ fault, FirstFault d fault → (ofData d = .error (.fault fault) ↔
      (∀ items, fault ≠ .unknown (.tuple items)) ∧ fault.shown.hasLong = false) := by
  have hall : ∀ f : Field, f ∈ Field.all := fun f => by cases f <;> decide
  refine ⟨exists_ofData_eq_ok_iff d, fun s hs => ⟨get_of_ofData hs, ?_⟩, ofData_eq_error_iff d,
    fun fault hfault => ?_⟩
  · exact ofData_dict (acceptable_of_ofData hs) hall
  · rw [(ofData_eq_error_iff d _).2 ⟨fault, hfault, rfl⟩, Except.error.injEq, fault.report_eq_fault_iff]

/-- A truth value is refused for the number of samples, though the key behind it names no setting. A limit of
zero and an absent seed are read, and the rest has its defaults. -/
theorem ofData_outcome_truth :
    ofData (.dict [(.text "seed", .null), (.text "samples", .bool true), (.text "sample", .int 1)]) =
        .error (.fault (.notInteger .samples (.bool true))) ∧
      ofData (.dict [(.text "seed", .null), (.text "roll_limit", .int 0)]) = .ok { rollLimit := 0 } ∧
      ofData (toData { rollLimit := 0 }) = .ok { rollLimit := 0 } := by
  have hread : ofData (.dict [(.text "seed", .null), (.text "roll_limit", .int 0)]) =
      .ok { rollLimit := 0 } := rfl
  have hseed : Proper (.text "seed", .null) := ⟨.seed, rfl, .inl ⟨rfl, rfl⟩⟩
  have hsamples : Objects (.text "samples", .bool true) (.notInteger .samples (.bool true)) :=
    .notInteger (f := .samples) (fun h => by cases h) (fun v h => by cases h)
  obtain ⟨-, -, -, htold⟩ := ofData_outcome
    (.dict [(.text "seed", .null), (.text "samples", .bool true), (.text "sample", .int 1)])
  obtain ⟨-, hagain, -⟩ := ofData_outcome (.dict [(.text "seed", .null), (.text "roll_limit", .int 0)])
  have hfirst := FirstFault.entry (List.forall_mem_singleton.2 hseed) hsamples
  exact ⟨(htold _ (hfirst [_])).2 ⟨fun items h => (by cases h), rfl⟩, hread, (hagain _ hread).2⟩

/-- A pair as a key names no setting, and a seed of 4301 digits does not fit in 64 bits. Neither is told: the
pair has a value more than the message has places, which is no error of a value, and so many digits are not
converted. -/
theorem ofData_of_unshown :
    ofData (.dict [(.tuple [.int 1, .int 2], .int 3)]) = .error (.format .tooMany) ∧
      (Error.format .tooMany).kind ≠ .value ∧
      ofData (.dict [(.text "seed", .int (Number.tenTo maxDigits))]) = .error (.format .longNumber) := by
  have hpair : Objects (.tuple [.int 1, .int 2], .int 3) (.unknown (.tuple [.int 1, .int 2])) :=
    .unknown fun f h => by cases h
  have hseed : Objects (.text Field.seed.name, .int (Number.tenTo maxDigits))
      (.tooLarge .seed (Number.tenTo maxDigits)) :=
    .tooLarge (Int.natCast_nonneg _) (.inr rfl) (by decide +kernel)
  have hshort : (Data.int 1).hasLong = false := by decide +kernel
  have hlong : (Data.int (Number.tenTo maxDigits)).hasLong = true := by decide +kernel
  have hnone : ∀ x ∈ ([] : List (Data × Data)), Proper x := List.forall_mem_nil _
  refine ⟨(ofData_eq_error_iff _ _).2 ⟨_, .entry hnone hpair [], ?_⟩, by decide,
    (ofData_eq_error_iff _ _).2 ⟨_, .entry hnone hseed [], ?_⟩⟩
  · show _ = if (Data.int 1).hasLong = true then Error.format .longNumber else Error.format .tooMany
    rw [hshort]
    rfl
  · show _ = (Fault.tooLarge .seed (Number.tenTo maxDigits)).fill
    rw [Fault.fill, Fault.shown, hlong]
    rfl

end DiceNotation.Settings
