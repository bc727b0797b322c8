import DiceNotation.Proofs.Grammar.Acceptance
import DiceNotation.Proofs.Lexing.Gluing
import Mathlib.Data.List.Forall2
import Mathlib.Data.Nat.Digits.Defs

/-!
# Zeros before a literal

A literal has the value that its digits have by their places, whatever zeros it starts with, and is refused
exactly if that value is too great. What a text compiles to depends on its literals by their values alone:
lexemes that say the same (`Lexeme.Same`) are the yields of trees with the same expression
(`Derivation.exists_same`). So zeros before a literal change nothing of the program
(`literalValue_decimal`).
-/

namespace DiceNotation

/-! ## Values by place -/

/-- The number that decimal digits denote by their places, the last of which is that of the ones. -/
def decimal (ds : List Char) : Nat :=
  Nat.ofDigits 10 (ds.map fun c => c.toNat - '0'.toNat).reverse

/-- The value that is read off digits from the left is that by their places. -/
theorem digitsValue_eq_decimal (ds : List Char) : digitsValue ds = decimal ds := by
  induction ds with
  | nil => rfl
  | cons c cs ih =>
    rw [digitsValue_cons, ih, decimal, decimal, List.map_cons, List.reverse_cons, Nat.ofDigits_append,
      List.length_reverse, List.length_map, Nat.ofDigits_singleton, Nat.mul_comm, Nat.add_comm]
    rfl

/-- Zeros before digits add nothing. -/
theorem digitsValue_zeros_append (z : Nat) (ds : List Char) :
    digitsValue (List.replicate z '0' ++ ds) = digitsValue ds := by
  induction z with
  | zero => rfl
  | succ z ih =>
    rw [List.replicate_succ, List.cons_append, digitsValue_cons, ih]
    exact (congrArg (· + digitsValue ds) (Nat.zero_mul _)).trans (Nat.zero_add _)

/-- Behind its leading zeros a literal is refused by its length or its value exactly if its value is too
great. -/
theorem tooLong_or_tooGreat_iff {ds : List Char} (hd : ∀ c ∈ ds, isDigit c = true) :
    19 < (ds.dropWhile (· == '0')).length ∨ maxLiteral < digitsValue (ds.dropWhile (· == '0')) ↔
      maxLiteral < digitsValue ds := by
  rw [digitsValue_dropWhile_zero]
  exact ⟨fun h => h.elim (maxLiteral_lt_of_length hd) id, .inr⟩

/-! ## Lexemes that say the same -/

/-- Lexemes that say the same: a lexeme says the same as itself, and a number as each with its value. -/
inductive Lexeme.Same : Lexeme → Lexeme → Prop
  /-- A lexeme says the same as itself. -/
  | refl (l : Lexeme) : Same l l
  /-- Digits with the same value say the same. -/
  | number {ds es : List Char} (hds : ∀ c ∈ ds, isDigit c = true) (hes : ∀ c ∈ es, isDigit c = true)
      (value : digitsValue ds = digitsValue es) : Same ⟨.number, ds⟩ ⟨.number, es⟩

namespace Lexeme.Same

variable {l l' : Lexeme}

/-- Saying the same goes both ways. -/
theorem symm (h : l.Same l') : l'.Same l := by
  cases h with
  | refl => exact .refl l
  | number hds hes value => exact .number hes hds value.symm

/-- Lexemes that say the same have the same token. -/
theorem token_eq (h : l.Same l') : l.token = l'.token := by
  cases h <;> rfl

/-- Only numbers have other lexemes that say the same. -/
theorem eq_of_token_ne (h : l.Same l') (hn : l'.token ≠ .number) : l = l' := by
  cases h with
  | refl => rfl
  | number => exact absurd rfl hn

/-- What says the same as a lexeme that is not too large is not too large. -/
theorem fits (h : l.Same l') (hfits : l'.Fits) : l.Fits := by
  cases h with
  | refl => exact hfits
  | number hds hes value => exact fun _ => ⟨hds, value ▸ (hfits rfl).2⟩

end Lexeme.Same

/-- Lexemes in a row that say the same, one by one. -/
abbrev SameLexemes (ls ls' : List Lexeme) : Prop :=
  List.Forall₂ Lexeme.Same ls ls'

namespace SameLexemes

variable {ls ls' : List Lexeme}

/-- Lexemes in a row say the same as themselves. -/
theorem refl (ls : List Lexeme) : SameLexemes ls ls :=
  List.forall₂_same.2 fun l _ => .refl l

/-- Saying the same goes both ways for lexemes in a row. -/
theorem symm (h : SameLexemes ls ls') : SameLexemes ls' ls :=
  (h.imp fun _ _ => Lexeme.Same.symm).flip

/-- What says the same as lexemes in two parts has these parts. -/
theorem exists_append {xs ys : List Lexeme} (h : SameLexemes ls (xs ++ ys)) :
    ∃ ls₁ ls₂, ls = ls₁ ++ ls₂ ∧ SameLexemes ls₁ xs ∧ SameLexemes ls₂ ys :=
  ⟨_, _, (List.take_append_drop xs.length ls).symm, List.forall₂_take_append ls xs ys h,
    List.forall₂_drop_append ls xs ys h⟩

/-- What says the same as lexemes with a token in front that is no number has this token in front. -/
theorem exists_of_cons {t : Token} (ht : t ≠ .number) {ys : List Lexeme}
    (h : SameLexemes ls (.of t :: ys)) : ∃ ls₁, ls = .of t :: ls₁ ∧ SameLexemes ls₁ ys := by
  obtain ⟨l, ls₁, hl, hys, rfl⟩ := List.forall₂_cons_right_iff.1 h
  exact ⟨ls₁, by rw [hl.eq_of_token_ne ht], hys⟩

/-- Lexemes in a row that say the same have the same tokens. -/
theorem map_token (h : SameLexemes ls ls') : ls.map Lexeme.token = ls'.map Lexeme.token := by
  induction h with
  | nil => rfl
  | cons hl _ ih => rw [List.map_cons, List.map_cons, hl.token_eq, ih]

/-- What says the same as lexemes that are not too large is not too large. -/
theorem fits (h : SameLexemes ls ls') (hfits : ∀ l ∈ ls', l.Fits) : ∀ l ∈ ls, l.Fits := by
  induction h with
  | nil => exact hfits
  | cons hl _ ih =>
    obtain ⟨hfirst, hrest⟩ := List.forall_mem_cons.1 hfits
    exact List.forall_mem_cons.2 ⟨hl.fits hfirst, ih hrest⟩

end SameLexemes

/-! ## Trees -/

namespace Derivation

variable {s : Nonterminal}

/-- What says the same as the yield of a tree is the yield of one with the same expression. -/
theorem exists_same (t : Derivation s) {ls : List Lexeme} (h : SameLexemes ls t.yield) :
    ∃ t' : Derivation s, t'.yield = ls ∧ t'.expr = t.expr := by
  -- The lexemes are cut where the yield is, and each part is the yield of a tree. A part of one lexeme
  -- with a fixed text is that lexeme, so only numbers can change.
  induction t generalizing ls with
  | number ds =>
    obtain ⟨l, ls₁, hl, hnil, rfl⟩ := List.forall₂_cons_right_iff.1 h
    obtain rfl := List.forall₂_nil_right_iff.1 hnil
    cases hl with
    | refl => exact ⟨.number ds, rfl, rfl⟩
    | @number es _ hes hds value => exact ⟨.number es, rfl, congrArg Expr.literal value⟩
  | paren b ih =>
    obtain ⟨ls₁, rfl, h₁⟩ := SameLexemes.exists_of_cons (by decide) h
    obtain ⟨ls₂, ls₃, rfl, hbody, h₃⟩ := SameLexemes.exists_append h₁
    obtain ⟨ls₄, rfl, hnil⟩ := SameLexemes.exists_of_cons (by decide) h₃
    obtain rfl := List.forall₂_nil_right_iff.1 hnil
    obtain ⟨b', rfl, hb'⟩ := ih hbody
    exact ⟨.paren b', rfl, congrArg Expr.wrap hb'⟩
  | bare p ih =>
    obtain ⟨p', hp', hexpr⟩ := ih h
    exact ⟨.bare p', hp', hexpr⟩
  | die p ih =>
    obtain ⟨ls₁, rfl, hsides⟩ := SameLexemes.exists_of_cons (by decide) h
    obtain ⟨p', rfl, hp'⟩ := ih hsides
    exact ⟨.die p', rfl, congrArg Expr.die hp'⟩
  | dice p q ihp ihq =>
    obtain ⟨ls₁, ls₂, rfl, htimes, h₂⟩ := SameLexemes.exists_append h
    obtain ⟨ls₃, rfl, hsides⟩ := SameLexemes.exists_of_cons (by decide) h₂
    obtain ⟨p', rfl, hp'⟩ := ihp htimes
    obtain ⟨q', rfl, hq'⟩ := ihq hsides
    exact ⟨.dice p' q', rfl, congrArg₂ Expr.dice hp' hq'⟩
  | plain b ih =>
    obtain ⟨b', hb', hexpr⟩ := ih h
    exact ⟨.plain b', hb', hexpr⟩
  | negated b ih =>
    obtain ⟨ls₁, rfl, hbody⟩ := SameLexemes.exists_of_cons (by decide) h
    obtain ⟨b', rfl, hb'⟩ := ih hbody
    exact ⟨.negated b', rfl, congrArg Expr.negate hb'⟩
  | single x ih =>
    obtain ⟨x', hx', hexpr⟩ := ih h
    exact ⟨.single x', hx', hexpr⟩
  | joined x op level y ihx ihy =>
    have hop : op.token ≠ .number := by cases op <;> decide
    obtain ⟨ls₁, ls₂, rfl, hleft, h₂⟩ := SameLexemes.exists_append h
    obtain ⟨ls₃, rfl, hright⟩ := SameLexemes.exists_of_cons hop h₂
    obtain ⟨x', rfl, hx'⟩ := ihx hleft
    obtain ⟨y', rfl, hy'⟩ := ihy hright
    exact ⟨.joined x' op level y', rfl, congrArg₂ (Expr.arith op) hx' hy'⟩

/-- Trees with the same expression and yields that say the same are admitted in the same places. -/
theorem Admitted.of_same {t t' : Derivation s} {n : Nat} (ha : t.Admitted n)
    (h : SameLexemes t'.yield t.yield) (he : t'.expr = t.expr) : t'.Admitted n := by
  obtain ⟨hfits, hclosed, hnesting⟩ := ha
  have htokens : t'.tokens = t.tokens := h.map_token
  refine ⟨h.fits hfits, ?_, by rwa [he]⟩
  rw [← runsClose_tokens_iff, htokens]
  exact t.runsClose_tokens_iff.2 hclosed

end Derivation

/-- Texts whose lexemes say the same compile to the same program. -/
theorem compile_eq_ok_of_same {a b : String} (h : SameLexemes (lexemes a.toList) (lexemes b.toList))
    {p : Program} (hb : compile b = .ok p) : compile a = .ok p := by
  have hgenuine : ∀ text : String, ∀ l ∈ lexemes text.toList, l.Genuine :=
    fun text l hl => Lexeme.genuine_of_mem_lexemes hl
  obtain ⟨e, hparse, rfl⟩ := compile_eq_ok_iff.1 hb
  obtain ⟨t, hyield, hadmitted, rfl⟩ := (parseLexemes_eq_ok_iff (hgenuine b)).1 hparse
  rw [← hyield] at h
  obtain ⟨t', hyield', hexpr⟩ := t.exists_same h
  rw [← hyield'] at h
  have hadmitted' := hadmitted.of_same h hexpr
  have hparse' := (parseLexemes_eq_ok_iff (hgenuine a)).2 ⟨t', hyield', hadmitted', hexpr.symm⟩
  exact compile_eq_ok_iff.2 ⟨t.expr, hparse', rfl⟩

/-! ## Texts -/

/-- With zeros before a literal a text has lexemes that say the same. -/
theorem sameLexemes_zeros {a ds : List Char} (ha : ∀ c ∈ a.getLast?, isDigit c = false) (hne : ds ≠ [])
    (hd : ∀ c ∈ ds, isDigit c = true) (z : Nat) (b : List Char) :
    SameLexemes (lexemes (a ++ (List.replicate z '0' ++ ds) ++ b)) (lexemes (a ++ ds ++ b)) := by
  have hzeros : ∀ c ∈ List.replicate z '0' ++ ds, isDigit c = true := by
    refine List.forall_mem_append.2 ⟨fun c hc => ?_, hd⟩
    rw [List.eq_of_mem_replicate hc]
    rfl
  have hne' : List.replicate z '0' ++ ds ≠ [] := List.append_ne_nil_of_right_ne_nil _ hne
  -- The text in front is read for itself, and then a literal.
  have hsplit : ∀ es : List Char, es ≠ [] → (∀ c ∈ es, isDigit c = true) →
      lexemes (a ++ es ++ b) = lexemes a ++
        (⟨.number, es ++ b.takeWhile isDigit⟩ :: lexemes (b.dropWhile isDigit)) := by
    intro es hes hdigits
    rw [← lexemes_digits_append hes hdigits b, List.append_assoc]
    obtain ⟨c, cs, rfl⟩ := List.exists_cons_of_ne_nil hes
    exact lexemes_append_digit ha (hdigits c List.mem_cons_self) (cs ++ b)
  have hrun : ∀ c ∈ b.takeWhile isDigit, isDigit c = true :=
    fun c hc => List.all_eq_true.1 List.all_takeWhile c hc
  rw [hsplit _ hne' hzeros, hsplit _ hne hd]
  refine List.rel_append (SameLexemes.refl _) (.cons (.number ?_ ?_ ?_) (SameLexemes.refl _))
  · exact List.forall_mem_append.2 ⟨hzeros, hrun⟩
  · exact List.forall_mem_append.2 ⟨hd, hrun⟩
  · rw [List.append_assoc, digitsValue_zeros_append]

/-- A literal of decimal digits, however many, has the value of the digits by their places if that is at most
`2^63 - 1`, and is refused with all of its digits otherwise. To refuse it for its length behind its leading
zeros or else for its value comes to the same. And whatever stands before and behind a literal, zeros that
are put in front of it do not change if the text compiles and to which program. -/
theorem literalValue_decimal {ds : List Char} (hne : ds ≠ []) (hd : ∀ c ∈ ds, isDigit c = true) :
    literalValue ds = (if decimal ds ≤ 2 ^ 63 - 1 then .ok (decimal ds)
      else .error (.invalidInteger (String.ofList ds) "number too large to fit in target type")) ∧
    (19 < (ds.dropWhile (· == '0')).length ∨ 2 ^ 63 - 1 < decimal (ds.dropWhile (· == '0')) ↔
      2 ^ 63 - 1 < decimal ds) ∧
    ∀ (z : Nat) (a b : List Char), (∀ c ∈ a.getLast?, isDigit c = false) → ∀ p : Program,
      compile (String.ofList (a ++ (List.replicate z '0' ++ ds) ++ b)) = .ok p ↔
        compile (String.ofList (a ++ ds ++ b)) = .ok p := by
  refine ⟨?_, ?_, fun z a b ha p => ?_⟩
  · rw [← digitsValue_eq_decimal]
    exact literalValue_eq hd
  · rw [← digitsValue_eq_decimal, ← digitsValue_eq_decimal]
    exact tooLong_or_tooGreat_iff hd
  · have hsame := sameLexemes_zeros ha hne hd z b
    rw [← String.toList_ofList (l := a ++ ds ++ b),
      ← String.toList_ofList (l := a ++ (List.replicate z '0' ++ ds) ++ b)] at hsame
    exact ⟨compile_eq_ok_of_same hsame.symm, compile_eq_ok_of_same hsame⟩

/-- The greatest literal is one behind any zeros, the number above it is none, and `2d6` is the same roll
with zeros before its sides. -/
theorem literalValue_decimal_zeros :
    literalValue "009223372036854775807".toList = .ok 9223372036854775807 ∧
    literalValue "09223372036854775808".toList =
      .error (.invalidInteger "09223372036854775808" "number too large to fit in target type") ∧
    compile "2d00006" = .ok ⟨[.num 2, .num 6, .dice], 2⟩ := by
  have hgreatest : ∀ c ∈ "009223372036854775807".toList, isDigit c = true :=
    List.all_eq_true.1 rfl
  have hgreater : ∀ c ∈ "09223372036854775808".toList, isDigit c = true :=
    List.all_eq_true.1 rfl
  have hcompile : compile "2d6" = .ok ⟨[.num 2, .num 6, .dice], 2⟩ := by with_unfolding_all rfl
  refine ⟨(literalValue_decimal (by decide) hgreatest).1.trans (by decide),
    (literalValue_decimal (by decide) hgreater).1.trans (by decide), ?_⟩
  have hsix : ∀ c ∈ ['6'], isDigit c = true := List.all_eq_true.1 rfl
  have hletter : ∀ c ∈ ['2', 'd'].getLast?, isDigit c = false := by
    rintro c ⟨⟩
    rfl
  exact ((literalValue_decimal (by decide) hsix).2.2 4 ['2', 'd'] [] hletter _).2 hcompile

end DiceNotation
