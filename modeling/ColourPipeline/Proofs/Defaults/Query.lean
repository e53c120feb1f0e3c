import ColourPipeline.Defaults.Source
import ColourPipeline.Proofs.Options.Collect

namespace ColourPipeline

namespace NameMap

variable {α : Type} {m : NameMap α} {name : String} {a b : α}

def Sorted (m : NameMap α) : Prop := m.Pairwise (·.1 < ·.1)

lemma mem_insert {x : String × α} (h : x ∈ m.insert name a) : x = (name, a) ∨ x ∈ m := by
  induction m with
  | nil => exact .inl (List.mem_singleton.1 h)
  | cons y m ih =>
    simp only [insert] at h
    split at h
    · rename_i hn
      exact (List.mem_cons.1 h).imp (fun hx => by rw [hx, hn]) (List.mem_cons_of_mem y)
    · split at h
      · exact List.mem_cons.1 h
      · rcases List.mem_cons.1 h with rfl | h
        · exact .inr List.mem_cons_self
        · exact (ih h).imp id (List.mem_cons_of_mem y)

lemma sorted_insert (hm : m.Sorted) (name : String) (a : α) : (m.insert name a).Sorted := by
  induction m with
  | nil => exact List.pairwise_singleton _ _
  | cons y m ih =>
    obtain ⟨hy, hm⟩ := List.pairwise_cons.1 hm
    simp only [insert]
    split
    · exact List.pairwise_cons.2 ⟨hy, hm⟩
    · split
      · rename_i hlt
        refine List.pairwise_cons.2 ⟨fun x hx => ?_, List.pairwise_cons.2 ⟨hy, hm⟩⟩
        rcases List.mem_cons.1 hx with rfl | hx
        · exact hlt
        · exact lt_trans hlt (hy x hx)
      · rename_i hne hge
        refine List.pairwise_cons.2 ⟨fun x hx => ?_, ih hm⟩
        rcases mem_insert hx with rfl | hx
        · exact lt_of_le_of_ne (not_lt.1 hge) (Ne.symm hne)
        · exact hy x hx

lemma mem_ofList {members : List (String × α)} {x : String × α} (h : x ∈ ofList members) :
    x ∈ members := by
  induction members using List.reverseRecOn with
  | nil => exact h
  | append_singleton members y ih =>
    rw [ofList, List.foldl_concat] at h
    rw [List.mem_append, List.mem_singleton]
    exact (mem_insert h).symm.imp ih id

lemma sorted_ofList (members : List (String × α)) : (ofList members).Sorted := by
  induction members using List.reverseRecOn with
  | nil => exact List.Pairwise.nil
  | append_singleton members y ih =>
    rw [ofList, List.foldl_concat]
    exact sorted_insert ih y.1 y.2

lemma find?_eq_some (hm : m.Sorted) : m.find? name = some a ↔ (name, a) ∈ m := by
  induction m with
  | nil => simp [find?]
  | cons y m ih =>
    obtain ⟨hy, hm⟩ := List.pairwise_cons.1 hm
    by_cases h : y.1 = name
    · have hnot : (name, a) ∉ m := fun hx => (hy _ hx).ne h
      obtain ⟨n, b⟩ := y
      obtain rfl : n = name := h
      simp [find?, hnot, eq_comm]
    · have hne : (name, a) ≠ y := fun heq => h (by rw [← heq])
      rw [List.mem_cons, or_iff_right hne, ← ih hm]
      simp [find?, h]

end NameMap

lemma exists_of_mem_mapM {α β : Type} {f : α → Option β} {xs : List α} {ys : List β}
    (h : xs.mapM f = some ys) {y : β} (hy : y ∈ ys) : ∃ x ∈ xs, f x = some y := by
  induction xs generalizing ys with
  | nil =>
    obtain rfl := Option.some.inj h
    cases hy
  | cons x xs ih =>
    rw [List.mapM_cons] at h
    obtain ⟨z, hz, h⟩ := Option.bind_eq_some_iff.1 h
    obtain ⟨zs, hzs, h⟩ := Option.bind_eq_some_iff.1 h
    obtain rfl := Option.some.inj h
    rcases List.mem_cons.1 hy with rfl | hy
    · exact ⟨x, List.mem_cons_self, hz⟩
    · obtain ⟨w, hw, hfw⟩ := ih hzs hy
      exact ⟨w, List.mem_cons_of_mem x hw, hfw⟩

namespace DefaultsLayer

inductive Made : DefaultsLayer → Prop
  | empty : Made empty
  | read {text l} (h : read? text = some l) : Made l
  | insert {l} (h : Made l) (pattern key v) : Made (l.insert pattern key v)

structure Ordered (l : DefaultsLayer) : Prop where
  patterns : l.patterns.Sorted
  keys : ∀ x ∈ l.patterns, x.2.Sorted

lemma sorted_of_keysOfJson? {v : Json} {keys : NameMap DefaultSpec}
    (h : keysOfJson? v = some keys) : keys.Sorted := by
  cases v with
  | obj members =>
    obtain rfl := Option.some.inj h
    exact NameMap.sorted_ofList _
  | _ => cases h

lemma ordered_of_ofJson? {v : Json} {l : DefaultsLayer} (h : ofJson? v = some l) :
    l.Ordered := by
  unfold ofJson? at h
  split at h
  · cases h
  · cases v with
    | obj members =>
      obtain ⟨patterns, hp, h⟩ := Option.bind_eq_some_iff.1 h
      obtain rfl := Option.some.inj h
      refine ⟨NameMap.sorted_ofList _, fun x hx => ?_⟩
      obtain ⟨y, -, hy⟩ := exists_of_mem_mapM hp (NameMap.mem_ofList hx)
      obtain ⟨keys, hkeys, rfl⟩ := Option.map_eq_some_iff.1 hy
      exact sorted_of_keysOfJson? hkeys
    | _ => cases h

lemma Ordered.insert {l : DefaultsLayer} (h : l.Ordered) (pattern key : String) (v : Json) :
    (l.insert pattern key v).Ordered := by
  refine ⟨NameMap.sorted_insert h.patterns _ _, fun x hx => ?_⟩
  rcases NameMap.mem_insert hx with rfl | hx
  · refine NameMap.sorted_insert ?_ _ _
    cases hp : l.patterns.find? pattern with
    | none => exact List.Pairwise.nil
    | some keys => exact h.keys _ ((NameMap.find?_eq_some h.patterns).1 hp)
  · exact h.keys x hx

lemma Made.ordered {l : DefaultsLayer} (h : l.Made) : l.Ordered := by
  induction h with
  | empty => exact ⟨List.Pairwise.nil, fun _ hx => absurd hx List.not_mem_nil⟩
  | read h =>
    obtain ⟨v, -, hv⟩ := Option.bind_eq_some_iff.1 h
    exact ordered_of_ofJson? hv
  | insert h pattern key v ih => exact ih.insert pattern key v

variable {l : DefaultsLayer} {r : Path} {f : AttributeFilter} {pattern key : String}
  {spec : DefaultSpec} {e : OptionEntry}

lemma mem_specs (hl : l.Ordered) : (pattern, key, spec) ∈ l.specs ↔
    ∃ keys, l.patterns.find? pattern = some keys ∧ keys.find? key = some spec := by
  rw [specs, List.mem_flatMap]
  constructor
  · rintro ⟨⟨p, keys⟩, hp, hk⟩
    obtain ⟨⟨k, s⟩, hk, heq⟩ := List.mem_map.1 hk
    obtain ⟨rfl, rfl, rfl⟩ := heq
    exact ⟨keys, (NameMap.find?_eq_some hl.patterns).2 hp,
      (NameMap.find?_eq_some (hl.keys _ hp)).2 hk⟩
  · rintro ⟨keys, hp, hk⟩
    have hp := (NameMap.find?_eq_some hl.patterns).1 hp
    exact ⟨(pattern, keys), hp,
      List.mem_map.2 ⟨(key, spec), (NameMap.find?_eq_some (hl.keys _ hp)).1 hk, rfl⟩⟩

lemma pairwise_specs (hl : l.Ordered) :
    l.specs.Pairwise fun x y => toLex (x.1, x.2.1) < toLex (y.1, y.2.1) := by
  rw [specs, List.pairwise_flatMap]
  constructor
  · rintro ⟨p, keys⟩ hp
    rw [List.pairwise_map]
    refine (hl.keys _ hp).imp fun {x y} hxy => ?_
    exact Prod.Lex.toLex_lt_toLex.2 (.inr ⟨rfl, hxy⟩)
  · refine hl.patterns.imp fun {x y} hxy a ha b hb => ?_
    obtain ⟨_, -, rfl⟩ := List.mem_map.1 ha
    obtain ⟨_, -, rfl⟩ := List.mem_map.1 hb
    exact Prod.Lex.toLex_lt_toLex.2 (.inl hxy)

def offer? (r : Path) (f : AttributeFilter) : String × String × DefaultSpec → Option OptionEntry
  | (pattern, key, spec) =>
    if (Path.parse pattern).selects r then (spec.entry? r key).filter (f.admits ·.flags) else none

lemma offer?_eq_some : offer? r f (pattern, key, spec) = some e ↔
    (Path.parse pattern).selects r = true ∧ spec.entry? r key = some e ∧
      f.admits e.flags = true := by
  rw [offer?]
  split <;> simp_all

lemma applicable_eq (l : DefaultsLayer) : l.applicable r f = l.specs.filterMap (offer? r f) := rfl

end DefaultsLayer

namespace LayeredDefaults

variable {d : LayeredDefaults} {r : Path} {f : AttributeFilter} {e : OptionEntry}

abbrev Place := ℕ ×ₗ String ×ₗ String

inductive Offers (d : LayeredDefaults) (r : Path) (f : AttributeFilter) :
    Place → OptionEntry → Prop
  | mk {i name l pattern keys key spec e} (layer : d.layers[i]? = some (name, l))
    (pattern_keys : l.patterns.find? pattern = some keys) (key_spec : keys.find? key = some spec)
    (selects : (Path.parse pattern).selects r = true) (entry : spec.entry? r key = some e)
    (admits : f.admits e.flags = true) : Offers d r f (toLex (i, toLex (pattern, key))) e

def placed (d : LayeredDefaults) (r : Path) (f : AttributeFilter) : List (Place × OptionEntry) :=
  d.layers.zipIdx.flatMap fun ((_, l), i) => l.specs.filterMap fun x =>
    (DefaultsLayer.offer? r f x).map (toLex (i, toLex (x.1, x.2.1)), ·)

lemma query_eq : d.query r f = .ofList ((d.placed r f).map (·.2)) := by
  rw [query, placed, List.map_flatMap]
  conv_lhs => rw [← List.zipIdx_map_fst 0 d.layers, List.flatMap_map]
  congr 1
  refine List.flatMap_congr fun ⟨⟨name, l⟩, i⟩ _ => ?_
  simp [DefaultsLayer.applicable_eq, List.map_filterMap, Option.map_map, Function.comp_def]

lemma mem_placed (hd : ∀ x ∈ d.layers, x.2.Ordered) {p : Place × OptionEntry} :
    p ∈ d.placed r f ↔ Offers d r f p.1 p.2 := by
  rw [placed, List.mem_flatMap]
  constructor
  · rintro ⟨⟨⟨name, l⟩, i⟩, hl, hp⟩
    have hl := List.mem_zipIdx_iff_getElem?.1 hl
    obtain ⟨⟨pattern, key, spec⟩, hx, hp⟩ := List.mem_filterMap.1 hp
    obtain ⟨e, he, rfl⟩ := Option.map_eq_some_iff.1 hp
    obtain ⟨keys, hk, hs⟩ := (DefaultsLayer.mem_specs (hd _ (List.mem_of_getElem? hl))).1 hx
    obtain ⟨hsel, he, ha⟩ := DefaultsLayer.offer?_eq_some.1 he
    exact .mk hl hk hs hsel he ha
  · obtain ⟨at', e⟩ := p
    rintro ⟨hl, hk, hs, hsel, he, ha⟩
    have hx := (DefaultsLayer.mem_specs (hd _ (List.mem_of_getElem? hl))).2 ⟨_, hk, hs⟩
    refine ⟨((_, _), _), List.mem_zipIdx_iff_getElem?.2 hl, List.mem_filterMap.2 ⟨_, hx, ?_⟩⟩
    rw [DefaultsLayer.offer?_eq_some.2 ⟨hsel, he, ha⟩]
    rfl

lemma pairwise_placed (hd : ∀ x ∈ d.layers, x.2.Ordered) :
    (d.placed r f).Pairwise (·.1 < ·.1) := by
  rw [placed, List.pairwise_flatMap]
  constructor
  · rintro ⟨⟨name, l⟩, i⟩ hl
    have hl := List.mem_of_getElem? (List.mem_zipIdx_iff_getElem?.1 hl)
    rw [List.pairwise_filterMap]
    refine (DefaultsLayer.pairwise_specs (hd _ hl)).imp fun {x y} hxy p hp q hq => ?_
    obtain ⟨_, -, rfl⟩ := Option.map_eq_some_iff.1 hp
    obtain ⟨_, -, rfl⟩ := Option.map_eq_some_iff.1 hq
    exact Prod.Lex.toLex_lt_toLex.2 (.inr ⟨rfl, hxy⟩)
  · have hlt : d.layers.zipIdx.Pairwise fun x y => x.2 < y.2 := by
      rw [← List.pairwise_map, List.zipIdx_map_snd]
      exact List.pairwise_lt_range'
    refine hlt.imp fun {x y} hxy p hp q hq => ?_
    obtain ⟨_, -, hp⟩ := List.mem_filterMap.1 hp
    obtain ⟨_, -, hq⟩ := List.mem_filterMap.1 hq
    obtain ⟨_, -, rfl⟩ := Option.map_eq_some_iff.1 hp
    obtain ⟨_, -, rfl⟩ := Option.map_eq_some_iff.1 hq
    exact Prod.Lex.toLex_lt_toLex.2 (.inl hxy)

lemma Offers.source {at' : Place} (h : Offers d r f at' e) : e.source = .defaults := by
  obtain ⟨-, -, -, -, he, -⟩ := h
  obtain ⟨v, -, rfl⟩ := Option.map_eq_some_iff.1 he
  rfl

/-- What a query answers: for every key on offer the last entry, the keys in the order in which
they are first offered. -/
structure Resolves (d : LayeredDefaults) (r : Path) (f : AttributeFilter) (s : OptionSet) :
    Prop where
  present : ∀ k, k ∈ s.keys ↔ ∃ at' e, Offers d r f at' e ∧ e.key = k
  last : ∀ k e, s.find? k = some e ↔ ∃ at', Offers d r f at' e ∧ e.key = k ∧
    ∀ at'' e', Offers d r f at'' e' → e'.key = k → at'' ≤ at'
  ordered : s.keys.Pairwise fun j k => ∃ at' e, Offers d r f at' e ∧ e.key = j ∧
    ∀ at'' e', Offers d r f at'' e' → e'.key = k → at' < at''
  distinct : s.keys.Nodup
  source : ∀ e ∈ s.entries, e.source = .defaults

lemma resolves_query (hd : ∀ x ∈ d.layers, x.2.Ordered) : Resolves d r f (d.query r f) := by
  have hpairs := pairwise_placed (r := r) (f := f) hd
  rw [query_eq]
  refine ⟨fun k => ?_, fun k e => ?_, ?_, OptionSet.nodup_ofList _, fun e he => ?_⟩
  · rw [OptionSet.mem_keys_ofList]
    simp only [List.mem_map, mem_placed hd, Prod.exists]
    constructor
    · rintro ⟨e, ⟨at', _, h, rfl⟩, hk⟩
      exact ⟨at', _, h, hk⟩
    · rintro ⟨at', e, h, hk⟩
      exact ⟨e, ⟨at', e, h, rfl⟩, hk⟩
  · rw [OptionSet.find?_ofList_placed hpairs]
    simp only [mem_placed hd, Prod.exists, Prod.forall]
    constructor
    · rintro ⟨at', e, h, rfl, hk, hlast⟩
      exact ⟨at', h, hk, hlast⟩
    · rintro ⟨at', h, hk, hlast⟩
      exact ⟨at', e, h, rfl, hk, hlast⟩
  · refine (OptionSet.pairwise_ofList_placed hpairs).imp ?_
    simp only [mem_placed hd, Prod.exists, Prod.forall]
    exact fun h => h
  · obtain ⟨p, hp, rfl⟩ := List.mem_map.1 (OptionSet.mem_of_mem_ofList he)
    exact ((mem_placed hd).1 hp).source

/-- A query answers with the last entry on offer for every key, so that a stack may be asked in
two parts. -/
theorem query_resolves (d : LayeredDefaults) (hd : ∀ x ∈ d.layers, x.2.Made) (r : Path)
    (f : AttributeFilter) :
    Resolves d r f (d.query r f) ∧ ∀ lower upper, d.layers = lower ++ upper →
      d.query r f = (query ⟨lower⟩ r f).merge (query ⟨upper⟩ r f) := by
  refine ⟨resolves_query fun x hx => (hd x hx).ordered, fun lower upper h => ?_⟩
  rw [query, h, List.flatMap_append, OptionSet.ofList_append]
  rfl

def systemLayer : DefaultsLayer :=
  ((((DefaultsLayer.empty.insert "//colour/icc" "rendering_intent" (.int 0)).insert
    "//colour/icc" "rendering_bpc" (.bool true)).insert
    "//colour/icc" "rendering_gain" .null).insert
    "//colour/lut" "rendering_intent" (.int 2))

def userLayer : DefaultsLayer :=
  (DefaultsLayer.empty.insert "icc.transform" "rendering_gain" (.str "soft")).insert
    "icc.transform" "rendering_intent.preset" (.int 3)

def policies : LayeredDefaults := ⟨[("system", systemLayer), ("user", userLayer)]⟩

def resolved : OptionSet := ⟨[
  { registration := "org/colour/icc.transform/rendering_bpc", value := .int 1,
    source := .defaults },
  { registration := "org/colour/icc.transform/rendering_intent.preset", value := .int 3,
    source := .defaults },
  { registration := "org/colour/icc.transform/rendering_gain", value := .text "soft",
    source := .defaults }]⟩

theorem query_resolves_policies : (∀ x ∈ policies.layers, x.2.Made) ∧
    policies.query ⟨"org/colour/icc.transform"⟩ .all = resolved ∧
    Resolves policies ⟨"org/colour/icc.transform"⟩ .all resolved ∧
    resolved = (query ⟨[("system", systemLayer)]⟩ ⟨"org/colour/icc.transform"⟩ .all).merge
      (query ⟨[("user", userLayer)]⟩ ⟨"org/colour/icc.transform"⟩ .all) := by
  have hmade : ∀ x ∈ policies.layers, x.2.Made := by
    intro x hx
    simp only [policies, List.mem_cons, List.not_mem_nil, or_false] at hx
    rcases hx with rfl | rfl
    · exact ((((DefaultsLayer.Made.empty.insert ..).insert ..).insert ..).insert ..)
    · exact (DefaultsLayer.Made.empty.insert ..).insert ..
  have hquery : policies.query ⟨"org/colour/icc.transform"⟩ .all = resolved := by
    decide +kernel
  obtain ⟨hres, hsplit⟩ := query_resolves policies hmade ⟨"org/colour/icc.transform"⟩ .all
  rw [hquery] at hres hsplit
  exact ⟨hmade, hquery, hres, hsplit [("system", systemLayer)] [("user", userLayer)] rfl⟩

end LayeredDefaults

end ColourPipeline
