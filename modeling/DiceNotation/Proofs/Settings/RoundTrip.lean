import DiceNotation.Proofs.Except
import DiceNotation.Proofs.Yaml.Format

/-!
# Saved settings

Settings that are saved and loaded back are the same ones, with any format of documents that writes and reads
blocks (`load_save`). Each setting is a line of the document, and the lines come in the order of their names,
which is not the one of the settings. That is no matter: an entry changes its own setting only
(`exists_set_eq_ok`), so entries that all agree with the same settings give these in any order
(`exists_foldlM_enter`). The word of a line is read as the number that it was written for
(`Yaml.denotes_ofNat?`), and none of them is refused, because what was read from data had been checked
(`acceptable_of_ofData`).
-/

namespace DiceNotation.Settings

variable {s t : Settings}

/-! ## One setting -/

/-- Settings are the same if each of them is the same as data. -/
theorem eq_of_get_eq (h : ∀ f, s.get f = t.get f) : s = t := by
  obtain ⟨rollLimit, seed, samples, plotWidth, plotHeight⟩ := s
  obtain ⟨rollLimit', seed', samples', plotWidth', plotHeight'⟩ := t
  have hrollLimit := h .rollLimit
  have hseed := h .seed
  have hsamples := h .samples
  have hplotWidth := h .plotWidth
  have hplotHeight := h .plotHeight
  simp only [get, Data.int.injEq, Int.natCast_inj] at hrollLimit hsamples hplotWidth hplotHeight
  have hseeds : seed = seed' := by
    cases seed with
    | none =>
      cases seed' with
      | none => rfl
      | some v => cases hseed
    | some v =>
      cases seed' with
      | none => cases hseed
      | some w => exact congrArg some (Int.ofNat.inj (Data.int.inj hseed))
  rw [hrollLimit, hseeds, hsamples, hplotWidth, hplotHeight]

/-- What a setting can be: a natural number, which has to fit in 64 bits for some, or nothing for the
seed. -/
def Field.Accepts (f : Field) (value : Data) : Prop :=
  (f = .seed ∧ value = .null) ∨ ∃ v : Nat, value = .int v ∧ (f.isWord = true → v < wordCount)

/-- A setting that is replaced is the new value, and the others stay. -/
theorem get_assign (s : Settings) (f : Field) (v : Nat) (g : Field) :
    (s.assign f v).get g = if g = f then .int v else s.get g := by
  cases f <;> cases g <;> rfl

/-- Without its seed settings have nothing for it, and the others stay. -/
theorem get_unseeded (s : Settings) (g : Field) :
    { s with seed := none }.get g = if g = .seed then .null else s.get g := by
  cases g <;> rfl

/-- An acceptable value is taken for its setting, and the others stay. -/
theorem exists_set_eq_ok {f : Field} {value : Data} (h : f.Accepts value) (s : Settings) :
    ∃ t, s.set f value = .ok t ∧ ∀ g, t.get g = if g = f then value else s.get g := by
  rcases h with ⟨rfl, rfl⟩ | ⟨v, rfl, hfits⟩
  · exact ⟨{ s with seed := none }, rfl, get_unseeded s⟩
  · refine ⟨s.assign f v, ?_, get_assign s f v⟩
    have hlarge : (f.isWord && decide ((v : Int) ≥ wordCount)) = false := by
      cases hword : f.isWord with
      | false => rfl
      | true =>
        have := hfits hword
        rw [Bool.true_and, decide_eq_false_iff_not]
        omega
    rw [set, if_neg (Int.not_lt.2 (Int.natCast_nonneg v)), hlarge]
    rfl

/-- Nothing but an acceptable value is taken. -/
theorem accepts_of_set_eq_ok {f : Field} {value : Data} (h : s.set f value = .ok t) : f.Accepts value := by
  unfold set at h
  split at h
  · exact .inl ⟨rfl, rfl⟩
  · next v =>
    split at h
    · cases h
    · next hnonneg =>
      split at h
      · cases h
      · next hfits =>
        refine .inr ⟨v.toNat, congrArg Data.int (Int.toNat_of_nonneg (Int.not_lt.1 hnonneg)).symm, ?_⟩
        intro hword
        rw [hword, Bool.true_and, decide_eq_true_eq] at hfits
        omega
  · cases h

/-- What is taken for a setting is its value, and the others stay. -/
theorem get_of_set_eq_ok {f : Field} {value : Data} (h : s.set f value = .ok t) (g : Field) :
    t.get g = if g = f then value else s.get g := by
  obtain ⟨t', ht', hget⟩ := exists_set_eq_ok (accepts_of_set_eq_ok h) s
  obtain rfl := Except.ok.inj (h.symm.trans ht')
  exact hget g

/-- A text is the name of the setting that is found by it. -/
theorem Field.name_of_ofName? {key : String} {f : Field} (h : Field.ofName? key = some f) :
    f.name = key := by
  have hname := List.find?_some h
  exact eq_of_beq hname

/-- An entry that names a setting is taken as a value of it. -/
theorem enter_name (s : Settings) (f : Field) (value : Data) :
    s.enter (.text f.name, value) = s.set f value := by
  rw [enter, Field.ofName?_name]

/-- An entry that is taken names a setting. -/
theorem exists_set_of_enter {entry : Data × Data} (h : s.enter entry = .ok t) :
    ∃ f : Field, entry.1 = .text f.name ∧ s.set f entry.2 = .ok t := by
  unfold enter at h
  split at h
  · split at h
    · next f hf => exact ⟨f, congrArg Data.text (Field.name_of_ofName? hf).symm, h⟩
    · cases h
  · cases h

/-! ## All settings -/

/-- Settings whose values would all be taken. -/
def Acceptable (s : Settings) : Prop :=
  ∀ f : Field, f.Accepts (s.get f)

/-- The defaults are acceptable. -/
theorem acceptable_default : Acceptable {} := by
  intro f
  cases f with
  | seed => exact .inl ⟨rfl, rfl⟩
  | rollLimit => exact .inr ⟨10, rfl, fun _ => by decide⟩
  | samples => exact .inr ⟨1000, rfl, fun h => by cases h⟩
  | plotWidth => exact .inr ⟨700, rfl, fun h => by cases h⟩
  | plotHeight => exact .inr ⟨500, rfl, fun h => by cases h⟩

/-- An entry keeps settings acceptable. -/
theorem Acceptable.enter (hs : s.Acceptable) {entry : Data × Data} (h : s.enter entry = .ok t) :
    t.Acceptable := by
  obtain ⟨f, -, hset⟩ := exists_set_of_enter h
  intro g
  rw [get_of_set_eq_ok hset]
  by_cases hg : g = f
  · rw [if_pos hg, hg]
    exact accepts_of_set_eq_ok hset
  · rw [if_neg hg]
    exact hs g

/-- Entries keep settings acceptable. -/
theorem Acceptable.foldlM_enter {entries : List (Data × Data)} (hs : s.Acceptable)
    (h : entries.foldlM Settings.enter s = .ok t) : t.Acceptable :=
  foldlM_keeps (fun _ _ _ _ hs' hentry => hs'.enter hentry) hs h

/-- Settings that are read from data are acceptable. -/
theorem acceptable_of_ofData {d : Data} (h : ofData d = .ok s) : s.Acceptable := by
  unfold ofData at h
  split at h
  · obtain rfl := Except.ok.inj h
    exact acceptable_default
  · exact acceptable_default.foldlM_enter h
  · cases h

/-- Entries with the values of acceptable settings are taken in any order, and change the settings of their
names only. -/
theorem exists_foldlM_enter (hs : s.Acceptable) (fs : List Field) (t : Settings) :
    ∃ t', (fs.map fun f => (Data.text f.name, s.get f)).foldlM enter t = .ok t' ∧
      ∀ g, t'.get g = if g ∈ fs then s.get g else t.get g := by
  induction fs generalizing t with
  | nil => exact ⟨t, rfl, fun g => (if_neg List.not_mem_nil).symm⟩
  | cons f fs ih =>
    obtain ⟨t₁, ht₁, hget₁⟩ := exists_set_eq_ok (hs f) t
    obtain ⟨t₂, ht₂, hget₂⟩ := ih t₁
    refine ⟨t₂, ?_, ?_⟩
    · rw [List.map_cons, List.foldlM_cons, enter_name, ht₁]
      exact ht₂
    -- What the other entries do not name is left as the first one left it.
    · intro g
      rw [hget₂, hget₁]
      by_cases hf : g = f
      · simp [hf]
      · simp [hf]

/-- Entries for all settings give the settings that they are from. -/
theorem ofData_dict (hs : s.Acceptable) {fs : List Field} (hall : ∀ f, f ∈ fs) :
    ofData (.dict (fs.map fun f => (.text f.name, s.get f))) = .ok s := by
  obtain ⟨t, ht, hget⟩ := exists_foldlM_enter hs fs {}
  rw [ofData, ht]
  refine congrArg Except.ok (eq_of_get_eq fun f => ?_)
  rw [hget, if_pos (hall f)]

/-! ## The document -/

namespace Field

/-- The settings in the order of their names. -/
def byName : List Field :=
  all.mergeSort fun f g => f.name ≤ g.name

/-- All settings are among those in the order of their names. -/
theorem mem_byName (f : Field) : f ∈ byName := by
  rw [byName, List.mem_mergeSort]
  cases f <;> decide

/-- No two settings have the same name. -/
theorem nodup_names : (all.map name).Nodup := by
  decide

end Field

/-- The name of a setting is written on one line with its value. -/
theorem isKey_name (f : Field) : Yaml.IsKey f.name := by
  cases f <;> exact ⟨by decide, by decide, by decide, by decide⟩

/-- A setting as a number, where there is one. -/
def number? (s : Settings) : Field → Option Nat
  | .rollLimit => some s.rollLimit
  | .seed => s.seed
  | .samples => some s.samples
  | .plotWidth => some s.plotWidth
  | .plotHeight => some s.plotHeight

/-- A setting is its number as data. -/
theorem get_eq_ofNat? (s : Settings) (f : Field) : s.get f = .ofNat? (s.number? f) := by
  cases f with
  | seed => cases hseed : s.seed <;> simp [get, number?, Data.ofNat?, hseed]
  | _ => rfl

section Document

variable (hdigits : ∀ (f : Field) (v : Nat), s.get f = .int v → (toString v).length ≤ maxDigits)

include hdigits

/-- The numbers of settings have no more digits than are converted. -/
theorem length_number? (f : Field) : ∀ n ∈ s.number? f, (toString n).length ≤ maxDigits := by
  intro n hn
  refine hdigits f n ?_
  rw [get_eq_ofNat?, Option.mem_def.1 hn]
  rfl

variable {ε : Type} {F : DocumentFormat ε} (hF : F.Spec)

include hF

/-- Settings are saved as a block of all of them, in the order of their names. -/
theorem save_eq :
    s.save F = .ok (Yaml.block (Field.byName.map fun f => (f.name, Yaml.wordOf (s.number? f)))) := by
  have hkeys : ((Field.all.map fun f => (f.name, s.number? f)).map Prod.fst).Nodup := by
    rw [List.map_map]
    exact Field.nodup_names
  have hwrite := hF.write (Field.all.map fun f => (f.name, s.number? f)) (List.cons_ne_nil _ _) hkeys <| by
    intro _ hmem
    obtain ⟨f, -, rfl⟩ := List.mem_map.1 hmem
    exact ⟨isKey_name f, length_number? hdigits f⟩
  rw [List.map_map, List.map_map] at hwrite
  have hentries : (Field.all.map fun f => (Data.text f.name, s.get f)) =
      Field.all.map fun f => (Data.text f.name, Data.ofNat? (s.number? f)) :=
    List.map_congr_left fun f _ => by rw [get_eq_ofNat?]
  have hsorted : (Field.byName.map fun f => (f.name, Yaml.wordOf (s.number? f))) =
      (Field.all.map fun f => (f.name, Yaml.wordOf (s.number? f))).mergeSort fun a b => a.1 ≤ b.1 :=
    List.map_mergeSort fun _ _ _ _ => rfl
  show F.write (Field.all.map fun f => (Data.text f.name, s.get f)) = _
  rw [hentries, hsorted]
  exact hwrite

/-- The document of saved settings holds all of them. -/
theorem read_block : F.read (Yaml.block (Field.byName.map fun f => (f.name, Yaml.wordOf (s.number? f)))) =
    .ok (.dict (Field.byName.map fun f => (.text f.name, s.get f))) := by
  have hkeys : ((Field.byName.map fun f =>
      (f.name, Yaml.wordOf (s.number? f), s.get f)).map Prod.fst).Nodup := by
    rw [List.map_map]
    exact ((Field.all.mergeSort_perm _).map Field.name).nodup_iff.2 Field.nodup_names
  have hsome : (Field.byName.map fun f => (f.name, Yaml.wordOf (s.number? f), s.get f)) ≠ [] :=
    mt List.map_eq_nil_iff.1 (List.ne_nil_of_mem (Field.mem_byName .seed))
  have hread := hF.read _ hsome hkeys <| by
    intro _ hmem
    obtain ⟨f, -, rfl⟩ := List.mem_map.1 hmem
    have hdenotes := Yaml.denotes_ofNat? (length_number? hdigits f)
    exact ⟨isKey_name f, hdenotes.isWord, by rw [get_eq_ofNat?]; exact hdenotes.data⟩
  rw [List.map_map, List.map_map] at hread
  exact hread

end Document

/-- With a format that writes dictionaries as blocks and reads blocks as dictionaries, settings that were read
from data, and whose numbers have no more digits than are converted, are saved as a document that gives the
same settings when it is loaded. -/
theorem load_save {ε : Type} {F : DocumentFormat ε} (hF : F.Spec) {d : Data} {s : Settings}
    (h : ofData d = .ok s)
    (hdigits : ∀ (f : Field) (v : Nat), s.get f = .int v → (toString v).length ≤ maxDigits) :
    ∃ document, s.save F = .ok document ∧ load F (some document) = .ok s := by
  have hdata := ofData_dict (acceptable_of_ofData h) Field.mem_byName
  refine ⟨_, save_eq hdigits hF, ?_⟩
  rw [load, Option.getD_some, read_block hdigits hF]
  dsimp only [Except.mapError, bind, Except.bind]
  rw [hdata]

/-- A seed of zero is kept, and so is a number of samples that does not fit in 64 bits. -/
theorem load_save_zero :
    ofData (.dict [(.text "seed", .int 0), (.text "samples", .int 0x10000000000000000)]) =
        .ok { seed := some 0, samples := 0x10000000000000000 } ∧
      ∃ document, save { seed := some 0, samples := 0x10000000000000000 } Yaml.format = .ok document ∧
        load Yaml.format (some document) = .ok { seed := some 0, samples := 0x10000000000000000 } := by
  have hdata : ofData (.dict [(.text "seed", .int 0), (.text "samples", .int 0x10000000000000000)]) =
      .ok { seed := some 0, samples := 0x10000000000000000 } := rfl
  refine ⟨hdata, load_save Yaml.format_spec hdata ?_⟩
  intro f v hv
  cases f with
  | seed =>
    obtain rfl := Int.ofNat.inj (Data.int.inj hv)
    decide
  | _ =>
    obtain rfl := Int.ofNat.inj (Data.int.inj hv)
    decide +kernel

end DiceNotation.Settings
