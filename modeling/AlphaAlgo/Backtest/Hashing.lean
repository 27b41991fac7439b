import AlphaAlgo.Base.Calendar
import AlphaAlgo.Lib.Joined
import AlphaAlgo.Market.Normalize

/-!
# Hashing — the bytes that identify a history

`canonicalBytes` writes the fields of each record between `|` and the records on lines.  The texts of a record may contain
both separators.

* `canonicalValue_inj`: two values of one field with one text are the same value.
* `render_inj`: known numbers of separators in the texts of the records determine everything.
* `canonicalBytes_iff`: exactly which histories their bytes tell apart.
-/

namespace AlphaAlgo.Hashing

open Joining Loop
open Backtest (CandleTimeframe)
open Market (MarketCandle MarketTick timeframeValue)

/-! ### The serializer -/

/-- The value of a field of a record. -/
inductive Value where
  | decimal (d : Dec)
  | datetime (t : DateTime)
  | uuid (u : UUID)
  | timeframe (t : CandleTimeframe)
  | none
  | str (s : String)
  | int (n : ℕ)

/-- What `astimezone` raises for an instant out of range in UTC. -/
inductive HashError where
  | overflowError
deriving DecidableEq

/-- `_canonical_value`. -/
def canonicalValue : Value → Except HashError String
  | .decimal d => .ok d.str
  | .datetime t =>
    match t.utcText with
    | some s => .ok s
    | Option.none => .error .overflowError
  | .uuid u => .ok u.str
  | .timeframe t => .ok (timeframeValue t)
  | .none => .ok "None"
  | .str s => .ok s
  | .int n => .ok (String.ofList (Dec.digits n))

inductive Record where
  | candle (c : MarketCandle)
  | tick (t : MarketTick)

namespace Record

def isCandle : Record → Bool
  | candle _ => true
  | tick _ => false

/-- A field that may be `None`. -/
def optional {α : Type} (f : α → Value) : Option α → Value
  | Option.none => .none
  | some a => f a

/-- The values of `_CANDLE_FIELDS` or `_TICK_FIELDS`. -/
def fields : Record → List Value
  | candle c => [.uuid c.instrumentId, .str c.exchange, .str c.symbol, .timeframe c.timeframe, .datetime c.candleStart,
      .decimal c.openPrice, .decimal c.highPrice, .decimal c.lowPrice, .decimal c.closePrice, optional .int c.volume,
      .str c.sourceBroker, .datetime c.generatedAt]
  | tick t => [.uuid t.instrumentId, .str t.exchange, .str t.symbol, .datetime t.timestamp, .decimal t.ltp,
      optional .int t.volume, optional (fun p => .decimal p.val) t.bid, optional (fun p => .decimal p.val) t.ask,
      optional .int t.bidQuantity, optional .int t.askQuantity, .str t.sourceBroker, .str t.sourceSequence,
      .datetime t.receivedAt]

end Record

def canonicalSerialize (r : Record) : Except HashError String := do
  let texts ← r.fields.mapM canonicalValue
  return "|".intercalate texts

def canonicalBytes (rs : List Record) : Except HashError ByteArray := do
  let lines ← rs.mapM canonicalSerialize
  return ("\n".intercalate lines).toUTF8

/-! ### The same values -/

/-- Decimals compare by their value, instants by their point of time. -/
def Value.Same : Value → Value → Prop
  | decimal d, decimal d' => d.val = d'.val
  | datetime t, datetime t' => t.instant = t'.instant
  | v, v' => v = v'

/-- Two values that one field can have. -/
def Value.Alike : Value → Value → Prop
  | decimal _, decimal _ | decimal _, none | none, decimal _ => True
  | int _, int _ | int _, none | none, int _ | none, none => True
  | datetime _, datetime _ | uuid _, uuid _ | timeframe _, timeframe _ | str _, str _ => True
  | _, _ => False

theorem str_ne_none (d : Dec) : d.str ≠ "None" := by
  intro h
  have hmem : 'N' ∈ d.str.toList := by
    rw [h]
    decide
  rw [Dec.toList_str, List.mem_append, List.mem_append] at hmem
  rcases hmem with (hmem | hmem) | hmem
  · split_ifs at hmem <;> simp at hmem
  · rcases Dec.body_char hmem with hd | hd
    · exact absurd hd (by decide)
    · exact absurd hd (by decide)
  · split_ifs at hmem
    · cases hmem
    · simp only [Dec.expPart, List.mem_cons] at hmem
      rcases hmem with hmem | hmem | hmem
      · exact absurd hmem (by decide)
      · split_ifs at hmem <;> exact absurd hmem (by decide)
      · exact absurd (isDigit_of_mem_digits hmem) (by decide)

theorem digits_ne_none (n : ℕ) : String.ofList (Dec.digits n) ≠ "None" := by
  intro h
  have hmem : 'N' ∈ Dec.digits n := by
    rw [← String.toList_ofList (l := Dec.digits n), h]
    decide
  exact absurd (isDigit_of_mem_digits hmem) (by decide)

theorem timeframeValue_inj {t t' : CandleTimeframe} (h : timeframeValue t = timeframeValue t') : t = t' := by
  cases t <;> cases t' <;> first | rfl | exact absurd h (by decide)

theorem canonicalValue_datetime {t : DateTime} {s : String} (h : canonicalValue (.datetime t) = .ok s) :
    t.utcText = some s := by
  cases htext : t.utcText with
  | none => simp [canonicalValue, htext] at h
  | some s' =>
    simp only [canonicalValue, htext] at h
    rw [Except.ok.inj h]

/-- **Two values of one field** with one text. -/
theorem canonicalValue_inj {v v' : Value} {s : String} (hv : v.Alike v') (h : canonicalValue v = .ok s)
    (h' : canonicalValue v' = .ok s) : v.Same v' := by
  cases v with
  | decimal d =>
    cases v' with
    | decimal d' => exact Dec.val_of_str (Except.ok.inj (h.trans h'.symm))
    | none => exact absurd (Except.ok.inj (h.trans h'.symm)) (str_ne_none d)
    | _ => exact hv.elim
  | datetime t =>
    cases v' with
    | datetime t' => exact DateTime.utcText_inj (canonicalValue_datetime h) (canonicalValue_datetime h')
    | _ => exact hv.elim
  | uuid u =>
    cases v' with
    | uuid u' => exact congrArg Value.uuid (UUID.str_inj (Except.ok.inj (h.trans h'.symm)))
    | _ => exact hv.elim
  | timeframe t =>
    cases v' with
    | timeframe t' => exact congrArg Value.timeframe (timeframeValue_inj (Except.ok.inj (h.trans h'.symm)))
    | _ => exact hv.elim
  | none =>
    cases v' with
    | none => exact rfl
    | decimal d' => exact absurd (Except.ok.inj (h'.trans h.symm)) (str_ne_none d')
    | int n' => exact absurd (Except.ok.inj (h'.trans h.symm)) (digits_ne_none n')
    | _ => exact hv.elim
  | str x =>
    cases v' with
    | str x' => exact congrArg Value.str (Except.ok.inj (h.trans h'.symm))
    | _ => exact hv.elim
  | int n =>
    cases v' with
    | none => exact absurd (Except.ok.inj (h.trans h'.symm)) (digits_ne_none n)
    | int n' => exact congrArg Value.int (digits_inj (String.ofList_inj.mp (Except.ok.inj (h.trans h'.symm))))
    | _ => exact hv.elim

/-! ### Texts and separators -/

/-- A text that the record was given. -/
def Value.text? : Value → Option String
  | str s => some s
  | _ => Option.none

/-- The texts of the record: exchange, symbol, broker and, for a tick, the sequence. -/
def Record.texts (r : Record) : List String := r.fields.filterMap Value.text?

/-- How often the separators are in the texts of a record. -/
def Record.separatorCounts (r : Record) : List (ℕ × ℕ) :=
  r.texts.map fun s => (s.toList.count '|', s.toList.count '\n')

/-- The value of a field has the separator this often. -/
def Value.count (c : Char) : Value → ℕ
  | str s => s.toList.count c
  | _ => 0

/-- A text with a format has no separator. -/
theorem canonicalValue_count {c : Char} (hc : plainChar c = false) {v : Value} {s : String}
    (h : canonicalValue v = .ok s) : s.toList.count c = v.count c := by
  have hplain : Plain s.toList → s.toList.count c = 0 := fun hs => hs.count_eq_zero hc
  cases v with
  | decimal d =>
    cases h
    exact hplain d.plain_str
  | datetime t => exact hplain (DateTime.plain_utcText (canonicalValue_datetime h))
  | uuid u =>
    cases h
    exact hplain u.plain_str
  | timeframe t =>
    cases h
    refine hplain ?_
    cases t <;> simp [timeframeValue, Plain, plainChar]
  | none =>
    cases h
    refine hplain ?_
    simp [Plain, plainChar]
  | str x =>
    cases h
    rfl
  | int n =>
    cases h
    refine hplain ?_
    rw [String.toList_ofList]
    exact plain_digits n

/-- The numbers of a separator in the fields are those in the texts. -/
theorem counts_of_texts {c : Char} {vs vs' : List Value} (h : List.Forall₂ Value.Alike vs vs')
    (hcounts : (vs.filterMap Value.text?).map (fun s => s.toList.count c) =
      (vs'.filterMap Value.text?).map fun s => s.toList.count c) :
    vs.map (Value.count c) = vs'.map (Value.count c) := by
  induction h with
  | nil => rfl
  | @cons v v' vs vs' hv _ ih =>
    rw [List.map_cons, List.map_cons]
    cases v with
    | str s =>
      cases v' with
      | str s' =>
        obtain ⟨hfirst, hrest⟩ := List.cons.inj hcounts
        rw [ih hrest]
        exact congrArg (· :: _) hfirst
      | _ => exact hv.elim
    | _ =>
      cases v' with
      | str s' => exact hv.elim
      | _ => exact congrArg (0 :: ·) (ih hcounts)

/-- The texts of the fields have the separators of the fields. -/
theorem counts_of_fields {c : Char} (hc : plainChar c = false) {vs : List Value} {ts : List String}
    (h : List.Forall₂ (fun v s => canonicalValue v = .ok s) vs ts) :
    ts.map (fun s => s.toList.count c) = vs.map (Value.count c) := by
  induction h with
  | nil => rfl
  | cons hv _ ih => rw [List.map_cons, List.map_cons, ih, canonicalValue_count hc hv]

/-! ### Histories -/

/-- The lines of the texts of the fields. -/
def render (texts : List (List String)) : List Char :=
  ['\n'].intercalate (texts.map fun ts => ['|'].intercalate (ts.map String.toList))

theorem canonicalSerialize_eq_ok {r : Record} {s : String} : canonicalSerialize r = .ok s ↔
    ∃ ts, List.Forall₂ (fun v s => canonicalValue v = .ok s) r.fields ts ∧ s = "|".intercalate ts := by
  rw [canonicalSerialize, bind_eq_ok]
  constructor
  · rintro ⟨ts, hts, h⟩
    exact ⟨ts, mapM_eq_ok_iff.mp hts, (Except.ok.inj h).symm⟩
  · rintro ⟨ts, hts, rfl⟩
    exact ⟨ts, mapM_eq_ok_iff.mpr hts, rfl⟩

/-- The texts of the fields of each record. -/
def Texts (rs : List Record) (texts : List (List String)) : Prop :=
  List.Forall₂ (fun r ts => List.Forall₂ (fun v s => canonicalValue v = .ok s) r.fields ts) rs texts

theorem lines_of_serialize {rs : List Record} {lines : List String}
    (h : List.Forall₂ (fun r s => canonicalSerialize r = .ok s) rs lines) :
    ∃ texts, Texts rs texts ∧ lines = texts.map "|".intercalate := by
  induction h with
  | nil => exact ⟨[], .nil, rfl⟩
  | cons hr _ ih =>
    obtain ⟨ts, hts, rfl⟩ := canonicalSerialize_eq_ok.mp hr
    obtain ⟨texts, htexts, rfl⟩ := ih
    exact ⟨ts :: texts, .cons hts htexts, rfl⟩

theorem canonicalBytes_eq {rs : List Record} {b : ByteArray} (h : canonicalBytes rs = .ok b) :
    ∃ texts, Texts rs texts ∧ b = (String.ofList (render texts)).toUTF8 := by
  obtain ⟨lines, hlines, h⟩ := bind_eq_ok.mp h
  obtain ⟨texts, htexts, rfl⟩ := lines_of_serialize (mapM_eq_ok_iff.mp hlines)
  refine ⟨texts, htexts, ?_⟩
  rw [← Except.ok.inj h]
  congr 1
  rw [← String.toList_inj, String.toList_ofList, String.toList_intercalate, List.map_map, render]
  congr 1
  refine List.map_congr_left fun ts _ => ?_
  exact String.toList_intercalate

/-! ### Histories with the same separators -/

/-- The separators in the fields of a record. -/
def Record.count (c : Char) (r : Record) : List ℕ := r.fields.map (Value.count c)

theorem optional_int_alike (o o' : Option ℕ) : (Record.optional .int o).Alike (Record.optional .int o') := by
  cases o <;> cases o' <;> trivial

theorem optional_decimal_alike (o o' : Option Market.Price) : (Record.optional (fun p => .decimal p.val) o).Alike
    (Record.optional (fun p => .decimal p.val) o') := by
  cases o <;> cases o' <;> trivial

/-- Two records of one kind have the same fields. -/
theorem fields_alike {r r' : Record} (h : r.isCandle = r'.isCandle) : List.Forall₂ Value.Alike r.fields r'.fields := by
  cases r with
  | candle c =>
    cases r' with
    | candle c' =>
      simp only [Record.fields, List.forall₂_cons]
      exact ⟨trivial, trivial, trivial, trivial, trivial, trivial, trivial, trivial, trivial, optional_int_alike _ _,
        trivial, trivial, .nil⟩
    | tick t' => cases h
  | tick t =>
    cases r' with
    | candle c' => cases h
    | tick t' =>
      simp only [Record.fields, List.forall₂_cons]
      exact ⟨trivial, trivial, trivial, trivial, trivial, optional_int_alike _ _, optional_decimal_alike _ _,
        optional_decimal_alike _ _, optional_int_alike _ _, optional_int_alike _ _, trivial, trivial, trivial, .nil⟩

/-- All records are of one kind. -/
def OneKind (rs rs' : List Record) : Prop := ∃ kind, ∀ r ∈ rs ++ rs', r.isCandle = kind

theorem count_of_separatorCounts {r r' : Record} (hkind : r.isCandle = r'.isCandle)
    (h : r.separatorCounts = r'.separatorCounts) : r.count '|' = r'.count '|' ∧ r.count '\n' = r'.count '\n' := by
  have hbars := congrArg (List.map Prod.fst) h
  have hlines := congrArg (List.map Prod.snd) h
  simp only [Record.separatorCounts, List.map_map] at hbars hlines
  exact ⟨counts_of_texts (fields_alike hkind) hbars, counts_of_texts (fields_alike hkind) hlines⟩

theorem counts_of_records : ∀ {rs rs' : List Record}, OneKind rs rs' →
    rs.map Record.separatorCounts = rs'.map Record.separatorCounts →
      rs.map (Record.count '|') = rs'.map (Record.count '|') ∧ rs.map (Record.count '\n') = rs'.map (Record.count '\n')
  | [], [], _, _ => ⟨rfl, rfl⟩
  | [], _ :: _, _, h => by cases h
  | _ :: _, [], _, h => by cases h
  | r :: rs, r' :: rs', ⟨kind, hkind⟩, h => by
    obtain ⟨hfirst, hrest⟩ := List.cons.inj h
    have hr : r.isCandle = r'.isCandle := (hkind r (by simp)).trans (hkind r' (by simp)).symm
    obtain ⟨hbars, hlines⟩ := count_of_separatorCounts hr hfirst
    have hrecords : OneKind rs rs' := ⟨kind, fun x hx => hkind x (by
      rcases List.mem_append.mp hx with hx | hx <;> simp [hx])⟩
    obtain ⟨hbars', hlines'⟩ := counts_of_records hrecords hrest
    exact ⟨by rw [List.map_cons, List.map_cons, hbars, hbars'], by rw [List.map_cons, List.map_cons, hlines, hlines']⟩

/-- The separators in the texts of the fields. -/
theorem counts_of_lines {c : Char} (hc : plainChar c = false) {rs : List Record} {texts : List (List String)}
    (h : Texts rs texts) : texts.map (fun ts => ts.map fun s => s.toList.count c) = rs.map (Record.count c) := by
  induction h with
  | nil => rfl
  | cons hr _ ih => rw [List.map_cons, List.map_cons, ih, counts_of_fields hc hr, Record.count]

/-- A line with the texts of its fields. -/
def line (ts : List String) : List Char := ['|'].intercalate (ts.map String.toList)

theorem count_line (ts : List String) : (line ts).count '\n' = (ts.map fun s => s.toList.count '\n').sum := by
  rw [line, count_intercalate (by decide), List.map_map]
  rfl

/-- Lines whose fields have known numbers of `|`. -/
theorem lines_inj : ∀ {texts texts' : List (List String)},
    texts.map (fun ts => ts.map fun s => s.toList.count '|') = texts'.map (fun ts => ts.map fun s => s.toList.count '|') →
      texts.map line = texts'.map line → texts = texts'
  | [], [], _, _ => rfl
  | [], _ :: _, h, _ => by cases h
  | _ :: _, [], h, _ => by cases h
  | ts :: texts, ts' :: texts', hcounts, h => by
    obtain ⟨hfirst, hrest⟩ := List.cons.inj h
    obtain ⟨hcount, hcounts⟩ := List.cons.inj hcounts
    have hsame : ts.map String.toList = ts'.map String.toList := by
      refine intercalate_inj (c := '|') ?_ hfirst
      rw [List.map_map, List.map_map]
      exact hcount
    rw [List.map_injective_iff.mpr (fun _ _ => String.toList_inj.mp) hsame, lines_inj hcounts hrest]

/-- The records of two histories have the same values. -/
def SameRecords (rs rs' : List Record) : Prop :=
  List.Forall₂ (fun r r' => List.Forall₂ Value.Same r.fields r'.fields) rs rs'

theorem same_of_fields {vs vs' : List Value} (h : List.Forall₂ Value.Alike vs vs') : ∀ {ts : List String},
    List.Forall₂ (fun v s => canonicalValue v = .ok s) vs ts →
      List.Forall₂ (fun v s => canonicalValue v = .ok s) vs' ts → List.Forall₂ Value.Same vs vs' := by
  induction h with
  | nil => exact fun _ _ => .nil
  | cons hv _ ih =>
    intro ts hts hts'
    cases hts with
    | cons hs hts =>
      cases hts' with
      | cons hs' hts' => exact .cons (canonicalValue_inj hv hs hs') (ih hts hts')

/-- Equal texts are those of the same records. -/
theorem same_of_texts : ∀ {rs rs' : List Record} {texts : List (List String)}, OneKind rs rs' → Texts rs texts →
    Texts rs' texts → SameRecords rs rs'
  | [], rs', texts, _, h, h' => by
    cases h
    cases h'
    exact .nil
  | r :: rs, rs', texts, ⟨kind, hkind⟩, h, h' => by
    cases h with
    | cons hr h =>
      cases h' with
      | @cons r' _ rs' _ hr' h' =>
        have hkind' : r.isCandle = r'.isCandle := (hkind r (by simp)).trans (hkind r' (by simp)).symm
        have hrecords : OneKind rs rs' := ⟨kind, fun x hx => hkind x (by
          rcases List.mem_append.mp hx with hx | hx <;> simp [hx])⟩
        refine .cons (same_of_fields (fields_alike hkind') hr hr') (same_of_texts hrecords h h')

/-- **Known numbers of separators** in the texts of the records. -/
theorem render_inj {rs rs' : List Record} {texts texts' : List (List String)} (hkind : OneKind rs rs')
    (ht : Texts rs texts) (ht' : Texts rs' texts')
    (hcounts : rs.map Record.separatorCounts = rs'.map Record.separatorCounts)
    (h : render texts = render texts') : texts = texts' := by
  obtain ⟨hbars, hlines⟩ := counts_of_records hkind hcounts
  rw [← counts_of_lines (by decide) ht, ← counts_of_lines (by decide) ht'] at hbars hlines
  have hline : texts.map line = texts'.map line := by
    refine intercalate_inj (c := '\n') ?_ h
    have hsums := congrArg (List.map List.sum) hlines
    rw [List.map_map, List.map_map] at hsums ⊢
    have hcount : (fun ts => (line ts).count '\n') = List.sum ∘ fun ts => ts.map fun s => s.toList.count '\n' :=
      funext count_line
    exact (congrArg (fun f => texts.map f) hcount).trans (hsums.trans (congrArg (fun f => texts'.map f) hcount).symm)
  exact lines_inj hbars hline

/-! ### Pieces -/

/-- The two separators. -/
def isSeparator (c : Char) : Bool := c == '|' || c == '\n'

/-- The pieces of all fields, in order. -/
def pieces (texts : List (List String)) : List (List Char) :=
  texts.flatMap fun ts => ts.flatMap fun s => s.toList.splitOnP isSeparator

/-- The separators in the fields and between them, in order. -/
def separators (texts : List (List String)) : List Char :=
  ['\n'].intercalate (texts.map fun ts => ['|'].intercalate (ts.map fun s => s.toList.filter isSeparator))

theorem Texts.ne_nil {rs : List Record} {texts : List (List String)} (h : Texts rs texts) : ∀ ts ∈ texts, ts ≠ [] := by
  induction h with
  | nil => exact fun ts hts => by cases hts
  | @cons r ts rs texts hr _ ih =>
    refine List.forall_mem_cons.mpr ⟨?_, ih⟩
    rintro rfl
    cases r <;> cases hr

theorem splitOnP_line {ts : List String} (h : ts ≠ []) :
    (line ts).splitOnP isSeparator = ts.flatMap fun s => s.toList.splitOnP isSeparator := by
  rw [line, splitOnP_intercalate (by decide) (by simpa using h), List.flatMap_map]

theorem splitOnP_render {texts : List (List String)} (hne : texts ≠ []) (h : ∀ ts ∈ texts, ts ≠ []) :
    (render texts).splitOnP isSeparator = pieces texts := by
  have hmap : texts.map line ≠ [] := by simpa using hne
  have hrender : render texts = ['\n'].intercalate (texts.map line) := rfl
  rw [hrender, splitOnP_intercalate (by decide) hmap, List.flatMap_map, pieces, List.flatMap_def, List.flatMap_def]
  congr 1
  exact List.map_congr_left fun ts hts => splitOnP_line (h ts hts)

theorem filter_render (texts : List (List String)) : (render texts).filter isSeparator = separators texts := by
  rw [render, filter_intercalate (by decide), List.map_map, separators]
  congr 1
  refine List.map_congr_left fun ts _ => ?_
  show (['|'].intercalate (ts.map String.toList)).filter isSeparator = _
  rw [filter_intercalate (by decide), List.map_map]
  rfl

/-- The lines of records are not empty. -/
theorem Texts.render_ne_nil {rs : List Record} {texts : List (List String)} (h : Texts rs texts) (hne : rs ≠ []) :
    render texts ≠ [] := by
  have hbar : '|' ∈ render texts := by
    cases h with
    | nil => exact absurd rfl hne
    | @cons r ts rs texts hr _ =>
      obtain ⟨a, b, l, rfl⟩ : ∃ a b l, ts = a :: b :: l := by
        cases r <;> (cases hr with | cons _ hr => cases hr with | cons _ hr => exact ⟨_, _, _, rfl⟩)
      have hline : '|' ∈ line (a :: b :: l) := by simp [line]
      cases texts with
      | nil =>
        have hone : render [a :: b :: l] = line (a :: b :: l) := List.intercalate_singleton
        rwa [hone]
      | cons ts' texts =>
        show '|' ∈ ['\n'].intercalate (line (a :: b :: l) :: line ts' :: texts.map line)
        rw [List.intercalate_cons_cons]
        exact List.mem_append_left _ (List.mem_append_left _ hline)
  exact List.ne_nil_of_mem hbar

/-- Two histories whose fields fall into the same pieces at the separators, and are grouped differently: their texts
have different numbers of separators. -/
structure Regrouped (rs rs' : List Record) : Prop where
  nonempty : rs ≠ [] ∧ rs' ≠ []
  counts : rs.map Record.separatorCounts ≠ rs'.map Record.separatorCounts
  pieces : ∃ texts texts', Texts rs texts ∧ Texts rs' texts' ∧ pieces texts = pieces texts' ∧
    separators texts = separators texts'

theorem forall₂_unique {α β : Type} {R : α → β → Prop} (hR : ∀ a b b', R a b → R a b' → b = b') {l : List α} :
    ∀ {l' l'' : List β}, List.Forall₂ R l l' → List.Forall₂ R l l'' → l' = l'' := by
  induction l with
  | nil =>
    intro l' l'' h h'
    cases h
    cases h'
    rfl
  | cons a l ih =>
    intro l' l'' h h'
    cases h with
    | cons ha h =>
      cases h' with
      | cons ha' h' => rw [hR a _ _ ha ha', ih h h']

theorem Texts.unique {rs : List Record} {texts texts' : List (List String)} (h : Texts rs texts)
    (h' : Texts rs texts') : texts = texts' := by
  refine forall₂_unique (R := fun (r : Record) ts => List.Forall₂ (fun v s => canonicalValue v = .ok s) r.fields ts)
    (fun r ts ts' hts hts' => ?_) h h'
  exact forall₂_unique (fun v s s' hs hs' => Except.ok.inj (hs.symm.trans hs')) hts hts'

theorem Texts.ne_nil_of_ne {rs : List Record} {texts : List (List String)} (h : Texts rs texts) (hne : rs ≠ []) :
    texts ≠ [] := by
  rintro rfl
  cases h
  exact hne rfl

theorem text?_of_same {v v' : Value} (h : v.Same v') : v.text? = v'.text? := by
  cases v <;> cases v' <;> first | rfl | (cases h; rfl) | cases h

theorem texts_of_same {vs vs' : List Value} (h : List.Forall₂ Value.Same vs vs') :
    vs.filterMap Value.text? = vs'.filterMap Value.text? := by
  induction h with
  | nil => rfl
  | cons hv _ ih => rw [List.filterMap_cons, List.filterMap_cons, text?_of_same hv, ih]

/-- The same records have the same texts. -/
theorem separatorCounts_of_same {rs rs' : List Record} (h : SameRecords rs rs') :
    rs.map Record.separatorCounts = rs'.map Record.separatorCounts := by
  induction h with
  | nil => rfl
  | @cons r r' rs rs' hr _ ih =>
    have htexts : r.texts = r'.texts := texts_of_same hr
    rw [List.map_cons, List.map_cons, ih, Record.separatorCounts, Record.separatorCounts, htexts]

/-- The texts of two histories are the same, or these are empty, exactly when the pieces and separators are. -/
theorem render_eq_iff {rs rs' : List Record} {texts texts' : List (List String)} (ht : Texts rs texts)
    (ht' : Texts rs' texts') (hne : rs ≠ []) (hne' : rs' ≠ []) :
    render texts = render texts' ↔ pieces texts = pieces texts' ∧ separators texts = separators texts' := by
  rw [← splitOnP_render (ht.ne_nil_of_ne hne) ht.ne_nil, ← splitOnP_render (ht'.ne_nil_of_ne hne') ht'.ne_nil,
    ← filter_render, ← filter_render]
  exact ⟨fun h => by rw [h]; exact ⟨rfl, rfl⟩, fun h => eq_of_pieces h.1 h.2⟩

/-- **The bytes tell two histories apart** exactly when these are not regrouped. -/
theorem canonicalBytes_iff {rs rs' : List Record} {b b' : ByteArray} (hkind : OneKind rs rs')
    (hb : canonicalBytes rs = .ok b) (hb' : canonicalBytes rs' = .ok b') :
    (b = b' → SameRecords rs rs') ↔ ¬Regrouped rs rs' := by
  obtain ⟨texts, ht, rfl⟩ := canonicalBytes_eq hb
  obtain ⟨texts', ht', rfl⟩ := canonicalBytes_eq hb'
  have hbytes : (String.ofList (render texts)).toUTF8 = (String.ofList (render texts')).toUTF8 ↔
      render texts = render texts' := String.toByteArray_inj.trans String.ofList_inj
  rw [hbytes]
  constructor
  · rintro h ⟨⟨hne, hne'⟩, hcounts, _, _, hu, hu', hpieces⟩
    cases hu.unique ht
    cases hu'.unique ht'
    exact hcounts (separatorCounts_of_same (h ((render_eq_iff ht ht' hne hne').mpr hpieces)))
  · intro hregrouped h
    by_cases hcounts : rs.map Record.separatorCounts = rs'.map Record.separatorCounts
    · have heq := render_inj hkind ht ht' hcounts h
      subst heq
      exact same_of_texts hkind ht ht'
    · exfalso
      by_cases hne : rs = []
      · subst hne
        cases ht
        have hne' : rs' ≠ [] := by
          rintro rfl
          exact hcounts rfl
        exact ht'.render_ne_nil hne' h.symm
      · by_cases hne' : rs' = []
        · subst hne'
          cases ht'
          exact ht.render_ne_nil hne h
        · exact hregrouped ⟨⟨hne, hne'⟩, hcounts, texts, texts', ht, ht', (render_eq_iff ht ht' hne hne').mp h⟩

/-! ### Texts without separators -/

/-- No text of the records contains a separator. -/
def Clean (rs : List Record) : Prop := ∀ r ∈ rs, ∀ s ∈ r.texts, ∀ c ∈ s.toList, isSeparator c = false

theorem count_eq_zero_of_clean {c : Char} (hc : isSeparator c = true) {s : String}
    (h : ∀ c ∈ s.toList, isSeparator c = false) : s.toList.count c = 0 := by
  refine List.count_eq_zero.mpr fun hmem => ?_
  rw [h c hmem] at hc
  cases hc

theorem Clean.separatorCounts {rs : List Record} (h : Clean rs) {r : Record} (hr : r ∈ rs) :
    r.separatorCounts = List.replicate r.texts.length (0, 0) := by
  refine List.eq_replicate_iff.mpr ⟨by rw [Record.separatorCounts, List.length_map], fun p hp => ?_⟩
  obtain ⟨s, hs, rfl⟩ := List.mem_map.mp hp
  rw [count_eq_zero_of_clean (by decide) (h r hr s hs), count_eq_zero_of_clean (by decide) (h r hr s hs)]

theorem Clean.count {rs : List Record} (h : Clean rs) {r : Record} (hr : r ∈ rs) : (r.count '\n').sum = 0 := by
  refine List.sum_eq_zero fun n hn => ?_
  obtain ⟨v, hv, rfl⟩ := List.mem_map.mp hn
  cases v with
  | str s => exact count_eq_zero_of_clean (by decide) (h r hr s (List.mem_filterMap.mpr ⟨_, hv, rfl⟩))
  | _ => rfl

/-- The line breaks of clean records are those between them. -/
theorem Clean.count_render {rs : List Record} {texts : List (List String)} (h : Clean rs) (ht : Texts rs texts)
    (hne : rs ≠ []) : (render texts).count '\n' + 1 = rs.length := by
  have hmap : texts.map line ≠ [] := by simpa using ht.ne_nil_of_ne hne
  have hrender : render texts = ['\n'].intercalate (texts.map line) := rfl
  have hcounts : (texts.map line).map (List.count '\n') = rs.map fun r => (r.count '\n').sum := by
    have hsums := congrArg (List.map List.sum) (counts_of_lines (c := '\n') (by decide) ht)
    rw [List.map_map, List.map_map] at hsums
    rw [List.map_map]
    exact (List.map_congr_left fun ts _ => count_line ts).trans hsums
  have hzero : (rs.map fun r => (r.count '\n').sum).sum = 0 := by
    refine List.sum_eq_zero fun n hn => ?_
    obtain ⟨r, hr, rfl⟩ := List.mem_map.mp hn
    exact h.count hr
  rw [hrender, count_sep_intercalate hmap, hcounts, hzero, Nat.zero_add, List.length_map]
  exact ht.length_eq.symm

theorem length_of_alike {vs vs' : List Value} (h : List.Forall₂ Value.Alike vs vs') :
    (vs.filterMap Value.text?).length = (vs'.filterMap Value.text?).length := by
  induction h with
  | nil => rfl
  | @cons v v' vs vs' hv _ ih =>
    cases v with
    | str s =>
      cases v' with
      | str s' => exact congrArg (· + 1) ih
      | _ => exact hv.elim
    | _ =>
      cases v' with
      | str s' => exact hv.elim
      | _ => exact ih

/-- **Histories without separators** in their texts are not regrouped. -/
theorem not_regrouped_of_clean {rs rs' : List Record} (hkind : OneKind rs rs') (h : Clean rs) (h' : Clean rs') :
    ¬Regrouped rs rs' := by
  rintro ⟨⟨hne, hne'⟩, hcounts, texts, texts', ht, ht', hpieces⟩
  have hrender : render texts = render texts' := (render_eq_iff ht ht' hne hne').mpr hpieces
  have hlength : rs.length = rs'.length := by
    rw [← h.count_render ht hne, ← h'.count_render ht' hne', hrender]
  obtain ⟨kind, hkind⟩ := hkind
  obtain ⟨first, hfirst⟩ := List.exists_mem_of_ne_nil rs hne
  have hreplicate : ∀ l : List Record, Clean l → (∀ r ∈ l, r.isCandle = kind) →
      l.map Record.separatorCounts = List.replicate l.length (List.replicate first.texts.length (0, 0)) := by
    intro l hl hk
    refine List.eq_replicate_iff.mpr ⟨List.length_map _, fun p hp => ?_⟩
    obtain ⟨r, hr, rfl⟩ := List.mem_map.mp hp
    rw [hl.separatorCounts hr, Record.texts, Record.texts,
      length_of_alike (fields_alike ((hk r hr).trans (hkind first (by simp [hfirst])).symm))]
  refine hcounts ?_
  rw [hreplicate rs h fun r hr => hkind r (by simp [hr]), hreplicate rs' h' fun r hr => hkind r (by simp [hr]), hlength]

/-! ### Two ticks -/

/-- A tick at an instant, of an exchange and a symbol. -/
def tickAt (time : Market.Stamp) (exchange : Market.Text 32) (symbol : Market.Text 100) : Record :=
  .tick
    { instrumentId := ⟨1⟩, exchange := exchange, symbol := symbol
      timestamp := time
      ltp := ⟨.ofNat 100, Market.hundred_pos⟩
      sourceBroker := ⟨"sim", by decide⟩, sourceSequence := ⟨"1", Market.one_within⟩
      receivedAt := time }

/-- The texts of its fields, with the text of the two instants. -/
def tickTexts (exchange symbol t : String) : List String :=
  [(UUID.mk 1).str, exchange, symbol, t, (Dec.ofNat 100).str, "None", "None", "None", "None", "None", "sim", "1", t]

theorem canonicalBytes_tickAt {time : Market.Stamp} {t : String} (ht : DateTime.utcText time.val = some t)
    (exchange : Market.Text 32) (symbol : Market.Text 100) :
    canonicalBytes [tickAt time exchange symbol] = .ok ("|".intercalate (tickTexts exchange symbol t)).toUTF8 := by
  have hfields : (tickAt time exchange symbol).fields.mapM canonicalValue = .ok (tickTexts exchange symbol t) := by
    simp only [tickAt, Record.fields, Record.optional, List.mapM_cons, List.mapM_nil, canonicalValue, ht]
    rfl
  have hline : canonicalSerialize (tickAt time exchange symbol) =
      .ok ("|".intercalate (tickTexts exchange symbol t)) := by
    rw [canonicalSerialize, hfields]
    rfl
  refine bind_eq_ok.mpr ⟨["|".intercalate (tickTexts exchange symbol t)], ?_, ?_⟩
  · exact mapM_eq_ok_iff.mpr (.cons hline .nil)
  · rw [String.intercalate_singleton]
    rfl

/-- One instant in two zones. -/
def openingUtc : Market.Stamp := ⟨⟨2026, 1, 1, 3, 45, 0, 0, some 0⟩, rfl⟩

def openingIst : Market.Stamp := ⟨⟨2026, 1, 1, 9, 15, 0, 0, some 19800000000⟩, rfl⟩

theorem utcText_opening : ∃ t, DateTime.utcText openingUtc.val = some t ∧ DateTime.utcText openingIst.val = some t := by
  obtain ⟨t, ht⟩ : ∃ t, DateTime.utcText openingUtc.val = some t := Option.isSome_iff_exists.mp (by decide +kernel)
  exact ⟨t, ht, ht ▸ by decide +kernel⟩

/-- The opening tick with an instant of the given zone. -/
def openingTick (time : Market.Stamp) : Record :=
  tickAt time ⟨"NSE", Market.nse_within⟩ ⟨"INFY", Market.infy_within⟩

theorem canonicalBytes_iff_zones : openingTick openingUtc ≠ openingTick openingIst ∧
    SameRecords [openingTick openingUtc] [openingTick openingIst] := by
  obtain ⟨t, hutc, hist⟩ := utcText_opening
  have hkind : OneKind [openingTick openingUtc] [openingTick openingIst] :=
    ⟨false, by simp [openingTick, tickAt, Record.isCandle]⟩
  refine ⟨fun h => ?_, (canonicalBytes_iff hkind (canonicalBytes_tickAt hutc _ _) (canonicalBytes_tickAt hist _ _)).mpr
    (fun h => h.counts rfl) rfl⟩
  exact absurd (congrArg Record.fields h) (by simp [openingTick, tickAt, Record.fields, openingUtc, openingIst])

/-- A `|` in the exchange of one tick, in the symbol of the other. -/
theorem not_canonicalBytes_injective : ¬ ∀ (rs rs' : List Record) (b b' : ByteArray), OneKind rs rs' →
    canonicalBytes rs = .ok b → canonicalBytes rs' = .ok b' → b = b' → SameRecords rs rs' := by
  intro h
  obtain ⟨t, ht, -⟩ := utcText_opening
  have htext : "|".intercalate (tickTexts "A|B" "C" t) = "|".intercalate (tickTexts "A" "B|C" t) := by
    rw [← String.toList_inj, String.toList_intercalate, String.toList_intercalate]
    rfl
  have hsame := h [tickAt openingUtc ⟨"A|B", by decide⟩ ⟨"C", by decide⟩]
    [tickAt openingUtc ⟨"A", by decide⟩ ⟨"B|C", by decide⟩] _ _ ⟨false, by simp [tickAt, Record.isCandle]⟩
    (canonicalBytes_tickAt ht _ _) (canonicalBytes_tickAt ht _ _) (congrArg String.toUTF8 htext)
  exact absurd (separatorCounts_of_same hsame) (by decide)

end AlphaAlgo.Hashing
