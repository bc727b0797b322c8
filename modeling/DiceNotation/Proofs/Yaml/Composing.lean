import DiceNotation.Proofs.Yaml.Scanning
import DiceNotation.Yaml.Value

/-!
# Dictionaries of words from documents

The tokens of a dictionary of words spell one mapping of scalars, and its data are the dictionary again
(`load_lines`): a key is the text that it looks like, and a value is what its text denotes. As the
keys differ, no entry replaces another one.
-/

namespace DiceNotation

namespace Data

/-! ## Dictionaries with different keys -/

/-- A key that is new goes to the end. -/
theorem put_of_new {key value : Data} {es : List (Data × Data)}
    (h : ∀ e ∈ es, sameKey e.1 key = false) : put key value es = es ++ [(key, value)] := by
  induction es with
  | nil => rfl
  | cons e es ih =>
    rw [put, h e List.mem_cons_self, if_neg Bool.false_ne_true,
      ih fun f hf => h f (List.mem_cons_of_mem _ hf), List.cons_append]

/-- A dictionary that is filled with different keys has its entries in their order. -/
theorem foldl_put (pairs : List (Data × Data)) (es : List (Data × Data))
    (h : (es ++ pairs).Pairwise fun e f => sameKey e.1 f.1 = false) :
    pairs.foldl (fun es (k, v) => put k v es) es = es ++ pairs := by
  induction pairs generalizing es with
  | nil => rw [List.foldl_nil, List.append_nil]
  | cons p pairs ih =>
    obtain ⟨key, value⟩ := p
    have hnew : put key value es = es ++ [(key, value)] :=
      put_of_new fun e he => (List.pairwise_append.1 h).2.2 e he (key, value) List.mem_cons_self
    rw [List.append_cons] at h ⊢
    rw [List.foldl_cons]
    dsimp only
    rw [hnew, ih _ h]

/-- Entries with different keys are those of the dictionary that is filled with them. -/
theorem entriesOf_eq_self {pairs : List (Data × Data)}
    (h : pairs.Pairwise fun e f => sameKey e.1 f.1 = false) : entriesOf pairs = pairs :=
  foldl_put pairs [] h

end Data

namespace Yaml

namespace Entry

variable (e : Entry)

/-- An entry as nodes. -/
def nodes : Node × Node :=
  (.scalar (Tag.ofPlain e.key) e.key, .scalar (Tag.ofPlain e.text) e.text)

/-- Entries as a document. -/
def document (es : List Entry) : Document :=
  ⟨.mapping 0 .map (es.map nodes), [], 1⟩

/-! ## Nodes -/

/-- An entry is read in front of the others. -/
theorem blockEntries_tokens (rest : List Token) (s : Node.Reading) (length depth n : Nat) :
    (Node.blockEntries (Node.read length (depth + 1)) (n + 1)).run { s with rest := e.tokens ++ rest } =
      ((e.nodes :: ·) <$> Node.blockEntries (Node.read length (depth + 1)) n).run { s with rest := rest } :=
  rfl

/-- The end of the block is read behind the last entry. -/
theorem blockEntries_blockEnd (rest : List Token) (s : Node.Reading) (length depth n : Nat) :
    (Node.blockEntries (Node.read length (depth + 1)) (n + 1)).run { s with rest := .blockEnd :: rest } =
      .ok ([], { s with rest := rest }) :=
  rfl

/-- All entries are read, up to the end of the block. -/
theorem blockEntries_lines (es : List Entry) (rest : List Token) (s : Node.Reading) (length depth : Nat)
    {n : Nat} (hn : es.length < n) :
    (Node.blockEntries (Node.read length (depth + 1)) n).run
        { s with rest := es.flatMap tokens ++ .blockEnd :: rest } =
      .ok (es.map nodes, { s with rest := rest }) := by
  induction es generalizing n with
  | nil =>
    obtain ⟨n, rfl⟩ := Nat.exists_eq_add_one.2 (Nat.zero_lt_of_lt hn)
    exact blockEntries_blockEnd rest s length depth n
  | cons e es ih =>
    obtain ⟨n, rfl⟩ := Nat.exists_eq_add_one.2 (Nat.zero_lt_of_lt hn)
    rw [List.flatMap_cons, List.append_assoc, blockEntries_tokens, StateT.run_map,
      ih (Nat.lt_of_succ_lt_succ hn)]
    rfl

/-- A mapping is read by its entries. -/
theorem read_blockMapping (ts : List Token) (s : Node.Reading) (length depth : Nat) :
    (Node.read length (depth + 2) true false).run { s with rest := .blockMapping :: ts } =
      (Node.mapping s.count .map <$> Node.blockEntries (Node.read length (depth + 1)) length).run
        { s with rest := ts, count := s.count + 1 } :=
  rfl

/-- A document with nothing behind its root is that node. -/
theorem document_of_read {t : Token} {ts : List Token} {root : Node} {s : Node.Reading} {length : Nat}
    (hstart : Node.startsDocument t = false)
    (hread : (Node.read length (length + 1) true false).run { rest := t :: ts } = pure (root, s))
    (hrest : s.rest = []) : (Node.document length).run { rest := t :: ts } = pure (some root, s) := by
  have hpeek : Node.peek.run { rest := t :: ts } =
      (pure (some t, { rest := t :: ts }) : Except Error _) := rfl
  have hend : Node.peek.run s = (pure (none, s) : Except Error _) := by
    obtain ⟨rest, names, anchors, count, handles⟩ := s
    cases hrest
    rfl
  have hends : (Node.skipEnds length).run s = pure ((), s) := by
    cases length with
    | zero => rfl
    | succ n =>
      obtain ⟨rest, names, anchors, count, handles⟩ := s
      cases hrest
      rfl
  unfold Node.document
  rw [StateT.run_bind, hpeek, pure_bind]
  dsimp only
  rw [hstart, if_neg Bool.false_ne_true, StateT.run_bind, hread, pure_bind, StateT.run_bind, hends, pure_bind,
    StateT.run_bind, hend, pure_bind]
  rfl

/-- An entry has four tokens. -/
theorem length_tokens (es : List Entry) : (es.flatMap tokens).length = 4 * es.length := by
  induction es with
  | nil => rfl
  | cons e es ih =>
    rw [List.flatMap_cons, List.length_append, ih, List.length_cons, tokens]
    simp only [List.length_cons, List.length_nil]
    omega

/-- The tokens of lines of entries are a document with one mapping. -/
theorem ofTokens?_lines (es : List Entry) :
    Document.ofTokens? (.blockMapping :: es.flatMap tokens ++ [.blockEnd]) = .ok (some (document es)) := by
  have henough : es.length < (Token.blockMapping :: es.flatMap tokens ++ [Token.blockEnd]).length + 1 := by
    have htokens := length_tokens es
    rw [List.length_append, List.length_cons]
    omega
  rw [Document.ofTokens?]
  generalize (Token.blockMapping :: es.flatMap tokens ++ [Token.blockEnd]).length = n at henough ⊢
  have hentries := blockEntries_lines es [] { rest := [], count := 1 } (n + 1) n henough
  have hread : (Node.read (n + 1) (n + 2) true false).run
      { rest := .blockMapping :: (es.flatMap tokens ++ [.blockEnd]) } =
      pure (.mapping 0 .map (es.map nodes), { rest := [], count := 1 }) := by
    refine (read_blockMapping _ { rest := [] } (n + 1) n).trans ?_
    rw [StateT.run_map]
    exact congrArg _ hentries
  rw [List.cons_append, document_of_read rfl hread rfl]
  rfl

/-! ## Data -/

/-- Nothing but a kind of scalars denotes data as a scalar. -/
theorem not_mem_collections {t : Tag} {text : String} {v : Data} (h : scalarData t text = .ok v) :
    [Tag.seq, .map, .set, .orderedMap, .pairs].contains t = false := by
  cases t <;> first | rfl | cases h

/-- There is nothing wrong with the value of an entry, and nothing in it. -/
theorem checkNode_value (d : Document) : d.checkNode e.nodes.2 = .ok none := by
  have hresolve : d.resolve e.nodes.2 = .scalar (Tag.ofPlain e.text) e.text := rfl
  have hscalar : ¬[Tag.seq, .map, .set, .orderedMap, .pairs].contains
      (Node.scalar (Tag.ofPlain e.text) e.text).tag = true := by
    rw [Bool.not_eq_true]
    exact not_mem_collections e.denotes.data
  unfold Document.checkNode
  rw [hresolve]
  dsimp only
  rw [if_neg hscalar, e.denotes.data]
  rfl

/-- The key of an entry is its text. -/
theorem keyData_key (d : Document) : d.keyData e.nodes.1 = .ok (.text e.key) := by
  have hresolve : d.resolve e.nodes.1 = .scalar (Tag.ofPlain e.key) e.key := rfl
  rw [Document.keyData, hresolve, e.isKey.tag]
  rfl

/-- The value of an entry is what its word denotes. -/
theorem build_value (d : Document) (n : Nat) (inside : List Nat) :
    d.build (n + 1) inside e.nodes.2 = e.value := by
  have hresolve : d.resolve e.nodes.2 = .scalar (Tag.ofPlain e.text) e.text := rfl
  rw [Document.build, hresolve]
  dsimp only [Document.scalarOr]
  rw [e.denotes.data]
  rfl

/-- A mapping has only its own entries where no key asks for those of others. -/
theorem mergedEntries_of_ne_merge {d : Document} {entries : List (Node × Node)}
    (h : ∀ e ∈ entries, (d.resolve e.1).tag ≠ .merge) (n k : Nat) (t : Tag) :
    d.mergedEntries (n + 1) [] (.mapping k t entries) = .ok entries := by
  have hown : entries.filter (fun e => !decide ((d.resolve e.1).tag = .merge)) = entries := by
    rw [List.filter_eq_self]
    intro e he
    rw [decide_eq_false (h e he)]
    rfl
  have hmerged : entries.filter (fun e => decide ((d.resolve e.1).tag = .merge)) = [] := by
    rw [List.filter_eq_nil_iff]
    intro e he
    rw [decide_eq_false (h e he)]
    decide
  unfold Document.mergedEntries
  dsimp only
  rw [hown, hmerged]
  rfl

/-- The document has the entries that it is made of. -/
theorem entriesOf_root (es : List Entry) :
    (document es).entriesOf (document es).root = .ok (es.map nodes) := by
  refine mergedEntries_of_ne_merge ?_ _ _ _
  intro n hn
  obtain ⟨e, -, rfl⟩ := List.mem_map.1 hn
  have htag : ((document es).resolve e.nodes.1).tag = Tag.ofPlain e.key := rfl
  rw [htag, e.isKey.tag]
  decide

/-- What refuses nothing and gives nothing gives no list. -/
theorem filterMapM_eq_nil {α β : Type} {f : α → Except Error (Option β)} {l : List α}
    (h : ∀ a ∈ l, f a = .ok none) : l.filterMapM f = .ok [] := by
  induction l with
  | nil => rfl
  | cons a l ih =>
    rw [List.filterMapM_cons, h a List.mem_cons_self]
    exact ih fun b hb => h b (List.mem_cons_of_mem _ hb)

/-- Every node of the document is sound by itself, and no collection is inside of another one. -/
theorem check_document (es : List Entry) : (document es).check = .ok () := by
  have hcontents : (document es).contents (document es).root = .ok [] := by
    have hvalues : Document.contents.values (document es) (document es).root = .ok [] := by
      rw [Document.contents.values, entriesOf_root]
      refine filterMapM_eq_nil ?_
      intro n hn
      obtain ⟨e, -, rfl⟩ := List.mem_map.1 hn
      rw [keyData_key]
      exact e.checkNode_value _
    exact hvalues
  have hqueue : (document es).checkQueue 3 [0] [(document es).root] = .ok () := by
    rw [Document.checkQueue, hcontents]
    rfl
  exact hqueue

/-- The data of the document are the dictionary of the entries. -/
theorem data_document {es : List Entry} (h : (es.map key).Nodup) :
    (document es).data = .ok (.dict (es.map pair)) := by
  have hdistinct : (es.map pair).Pairwise fun e f => Data.sameKey e.1 f.1 = false := by
    rw [List.pairwise_map]
    rw [List.Nodup, List.pairwise_map] at h
    exact h.imp fun hne => beq_eq_false_iff_ne.2 hne
  have hdata : (document es).dictEntries ((document es).build (document es).bound []) (document es).root =
      es.map pair := by
    have hpairs : (es.map nodes).map (fun n => (((document es).keyData n.1).toOption.getD .null,
        (document es).build (document es).bound [] n.2)) = es.map pair := by
      rw [List.map_map]
      refine List.map_congr_left fun e _ => ?_
      rw [Function.comp_apply, keyData_key, Document.bound, build_value]
      rfl
    rw [Document.dictEntries, entriesOf_root]
    exact (congrArg Data.entriesOf hpairs).trans (Data.entriesOf_eq_self hdistinct)
  rw [Document.data, check_document]
  exact congrArg (fun entries => Except.ok (Data.dict entries)) hdata

/-! ## The document that was written -/

/-- Without carriage returns a text is read as it is. -/
theorem unifyBreaks_eq_self {cs : List Char} (h : ∀ c ∈ cs, c ≠ '\r') : unifyBreaks cs = cs := by
  induction cs with
  | nil => rfl
  | cons c cs ih =>
    have hc := h c List.mem_cons_self
    unfold unifyBreaks
    split
    · next heq => exact absurd (List.cons.inj heq).1 hc
    · next heq => exact absurd (List.cons.inj heq).1 hc
    · next heq =>
      obtain ⟨rfl, rfl⟩ := List.cons.inj heq
      rw [ih fun d hd => h d (List.mem_cons_of_mem _ hd)]
    · next heq => cases heq

/-- A dictionary of words is read from the lines of its entries. -/
theorem load_lines {es : List Entry} (hne : es ≠ []) (h : (es.map key).Nodup) :
    load (String.ofList (es.flatMap line)) = .ok (.dict (es.map pair)) := by
  have hreturn : ∀ c ∈ es.flatMap Entry.line, c ≠ '\r' := by
    intro c hc
    obtain ⟨e, -, he⟩ := List.mem_flatMap.1 hc
    rintro rfl
    rcases e.mem_line he with hword | hc | hc | hc
    · exact absurd hword (by decide)
    · exact absurd hc (by decide)
    · exact absurd hc (by decide)
    · exact absurd hc (by decide)
  rw [load, String.toList_ofList, unifyBreaks_eq_self hreturn, tokens_lines hne]
  dsimp only [bind, Except.bind]
  rw [ofTokens?_lines]
  exact data_document h

end Entry

end Yaml

end DiceNotation
