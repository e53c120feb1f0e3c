import ColourPipeline.Proofs.Defaults.Query
import ColourPipeline.Proofs.Json.Reader

namespace ColourPipeline

section FilterMap

variable {α β : Type} {f g : α → Option β} {xs : List α}

lemma filterMap_sublist (h : ∀ x ∈ xs, g x = f x ∨ f x = none) :
    (xs.filterMap f).Sublist (xs.filterMap g) := by
  induction xs with
  | nil => exact List.Sublist.refl _
  | cons x xs ih =>
    obtain ⟨hx, hxs⟩ := List.forall_mem_cons.1 h
    have hsub := ih hxs
    rcases hx with hx | hx
    · rw [List.filterMap_cons, List.filterMap_cons, hx]
      cases f x with
      | none => exact hsub
      | some y => exact hsub.cons_cons y
    · rw [List.filterMap_cons_none hx, List.filterMap_cons]
      cases g x with
      | none => exact hsub
      | some y => exact hsub.cons y

lemma filterMap_eq_filterMap_iff (h : ∀ x ∈ xs, g x = f x ∨ f x = none) :
    xs.filterMap g = xs.filterMap f ↔ ∀ x ∈ xs, g x = f x := by
  refine ⟨fun heq => ?_, List.filterMap_congr⟩
  induction xs with
  | nil => simp
  | cons x xs ih =>
    obtain ⟨hx, hxs⟩ := List.forall_mem_cons.1 h
    have hlen := (filterMap_sublist hxs).length_le
    rw [List.forall_mem_cons]
    cases hf : f x with
    | none =>
      cases hg : g x with
      | none =>
        rw [List.filterMap_cons_none hf, List.filterMap_cons_none hg] at heq
        exact ⟨rfl, ih hxs heq⟩
      | some y =>
        -- One more on this side, and nothing less in the rest.
        rw [List.filterMap_cons_none hf, List.filterMap_cons_some hg] at heq
        have hmore := congrArg List.length heq
        rw [List.length_cons] at hmore
        omega
    | some y =>
      have hg : g x = some y := (hx.resolve_right (by simp [hf])).trans hf
      rw [List.filterMap_cons_some hf, List.filterMap_cons_some hg] at heq
      exact ⟨hg, ih hxs (List.cons.inj heq).2⟩

end FilterMap

namespace NameMap

variable {α β : Type} {m : NameMap α} {name : String}

lemma insert_of_forall_lt (h : ∀ x ∈ m, x.1 < name) (a : α) :
    m.insert name a = m ++ [(name, a)] := by
  induction m with
  | nil => rfl
  | cons x m ih =>
    obtain ⟨hx, hm⟩ := List.forall_mem_cons.1 h
    rw [insert, if_neg hx.ne', if_neg hx.asymm, ih hm]
    rfl

lemma ofList_of_sorted (hm : m.Sorted) : ofList m = m := by
  induction m using List.reverseRecOn with
  | nil => rfl
  | append_singleton m x ih =>
    obtain ⟨hm, -, hx⟩ := List.pairwise_append.1 hm
    have hlast : NameMap.insert x.1 x.2 m = m ++ [x] :=
      insert_of_forall_lt (fun y hy => hx y hy x (List.mem_singleton_self x)) x.2
    rw [ofList, List.foldl_concat]
    exact (congrArg (NameMap.insert x.1 x.2) (ih hm)).trans hlast

lemma Sorted.map (hm : m.Sorted) (f : α → β) : Sorted (m.map fun (k, a) => (k, f a)) :=
  List.pairwise_map.2 hm

end NameMap

namespace Json

mutual

theorem Faithful.readable : ∀ {v : Json}, v.Faithful → v.readable = true
  | .arr _, h => FaithfulItems.readable h
  | .obj _, h => FaithfulMembers.readable h
  | .null, _ | .bool _, _ | .int _, _ | .float _, _ | .str _, _ => rfl

theorem FaithfulItems.readable : ∀ {vs : List Json}, FaithfulItems vs → readableItems vs = true
  | [], _ => rfl
  | _ :: _, h => Bool.and_eq_true_iff.2 ⟨h.1.readable, FaithfulItems.readable h.2⟩

theorem FaithfulMembers.readable :
    ∀ {ms : List (String × Json)}, FaithfulMembers ms → readableMembers ms = true
  | [], _ => rfl
  | _ :: _, h => Bool.and_eq_true_iff.2 ⟨h.1.readable, FaithfulMembers.readable h.2⟩

end

lemma depthMembers_le {ms : List (String × Json)} {n : ℕ} :
    depthMembers ms ≤ n ↔ ∀ m ∈ ms, m.2.depth ≤ n := by
  induction ms with
  | nil => simp [depthMembers]
  | cons m ms ih => rw [depthMembers, Nat.max_le, ih, List.forall_mem_cons]

lemma depth_lt_of_mem {ms : List (String × Json)} {m : String × Json} (h : m ∈ ms) :
    m.2.depth < (obj ms).depth :=
  Nat.lt_succ_of_le (depthMembers_le.1 le_rfl m h)

lemma mem_of_fields? {ms : List (String × Json)} {name : String} {names : List String} {w : Json}
    {fs : List Field} (h : (obj ms).fields? (name :: names) = some (.given w :: fs)) :
    (name, w) ∈ ms := by
  rw [fields?, List.mapM_cons] at h
  obtain ⟨f, hf, h⟩ := Option.bind_eq_some_iff.1 h
  obtain ⟨fs', -, h⟩ := Option.bind_eq_some_iff.1 h
  obtain ⟨rfl, -⟩ := List.cons.inj (Option.some.inj h)
  split at hf
  · cases hf
  · rename_i k v hfilter
    obtain rfl : v = w := by simpa using hf
    have hmem : (k, v) ∈ ms.filter (·.1 == name) := hfilter ▸ List.mem_singleton_self _
    obtain ⟨hmem, hk⟩ := List.mem_filter.1 hmem
    rwa [← eq_of_beq hk]
  · cases hf

end Json

namespace DefaultSpec

open Json

variable {v : Json} {d : DefaultSpec} {r : Path} {key : String}

mutual

theorem depth_sorted_le : ∀ v : Json, (sorted v).depth ≤ v.depth
  | .arr items => Nat.succ_le_succ (depth_sortedItems_le items)
  | .obj members => Nat.succ_le_succ (depthMembers_le.2 fun m hm =>
      (depthMembers_le.1 (depth_sortedMembers_le members)) m (NameMap.mem_ofList hm))
  | .null | .bool _ | .int _ | .float _ | .str _ | .unreadable => le_rfl

theorem depth_sortedItems_le : ∀ vs : List Json, depthItems (sortedItems vs) ≤ depthItems vs
  | [] => le_rfl
  | v :: vs => max_le_max (depth_sorted_le v) (depth_sortedItems_le vs)

theorem depth_sortedMembers_le :
    ∀ ms : List (String × Json), depthMembers (sortedMembers ms) ≤ depthMembers ms
  | [] => le_rfl
  | (_, v) :: ms => max_le_max (depth_sorted_le v) (depth_sortedMembers_le ms)

end

lemma str?_sorted (v : Json) : (sorted v).str? = v.str? := by
  cases v <;> rfl

lemma mapM_sortedItems (vs : List Json) : (sortedItems vs).mapM str? = vs.mapM str? := by
  induction vs with
  | nil => rfl
  | cons v vs ih => rw [sortedItems, List.mapM_cons, List.mapM_cons, str?_sorted, ih]

lemma option?_sorted (v : Json) : option? (sorted v) = option? v := by
  cases v with
  | arr items => exact congrArg (Option.map OptionValue.profiles) (mapM_sortedItems items)
  | _ => rfl

lemma detailed?_toJson (v : Json) (advanced front locked : Bool) :
    detailed? (toJson (.detailed v advanced front locked)) =
      some (.detailed (sorted v) advanced front locked) := rfl

lemma of_detailed? (h : detailed? v = some d) : ∃ members w advanced front locked,
    v = .obj members ∧ ("value", w) ∈ members ∧ d = .detailed (sorted w) advanced front locked := by
  cases v with
  | obj members =>
    obtain ⟨fs, hfs, h⟩ := Option.bind_eq_some_iff.1 h
    split at h
    · rename_i value advanced front locked
      obtain ⟨w, hw, h⟩ := Option.bind_eq_some_iff.1 h
      obtain ⟨a, -, h⟩ := Option.bind_eq_some_iff.1 h
      obtain ⟨b, -, h⟩ := Option.bind_eq_some_iff.1 h
      obtain ⟨c, -, h⟩ := Option.bind_eq_some_iff.1 h
      cases value with
      | given u =>
        obtain rfl := Option.some.inj hw
        exact ⟨members, u, a, b, c, rfl, mem_of_fields? hfs, (Option.some.inj h).symm⟩
      | absent => cases hw
      | cut => cases hw
    · cases h
  | _ => cases h

lemma depth_toJson_ofJson_le (v : Json) : (ofJson v).toJson.depth ≤ v.depth := by
  rw [ofJson]
  cases hd : detailed? v with
  | none => exact depth_sorted_le v
  | some d =>
    obtain ⟨members, w, advanced, front, locked, rfl, hw, rfl⟩ := of_detailed? hd
    refine Nat.succ_le_succ (depthMembers_le.2 fun m hm => ?_)
    have hdepth : w.depth ≤ depthMembers members := depthMembers_le.1 le_rfl _ hw
    simp only [List.mem_cons, List.not_mem_nil, or_false] at hm
    rcases hm with rfl | rfl | rfl | rfl
    · exact (depth_sorted_le w).trans hdepth
    all_goals exact Nat.zero_le _

def reread (spec : DefaultSpec) : DefaultSpec := ofJson spec.toJson

lemma entry?_congr {spec spec' : DefaultSpec} (hv : option? spec.value = option? spec'.value)
    (hf : spec.flags = spec'.flags) : spec.entry? r key = spec'.entry? r key := by
  unfold entry?
  rw [hv, hf]

lemma entry?_reread (spec : DefaultSpec) (r : Path) (key : String) :
    spec.reread.entry? r key = spec.entry? r key ∨ spec.entry? r key = none ∧
      ∃ v d, spec = .plain v ∧ detailed? v = some d ∧ spec.reread = d := by
  cases spec with
  | detailed v advanced front locked =>
    rw [reread, ofJson, detailed?_toJson]
    exact .inl (entry?_congr (option?_sorted v) rfl)
  | plain v =>
    rw [reread, ofJson, toJson]
    cases hd : detailed? v with
    | none => exact .inl (entry?_congr (option?_sorted v) rfl)
    | some d =>
      obtain ⟨members, -, -, -, -, rfl, -⟩ := of_detailed? hd
      exact .inr ⟨rfl, _, d, rfl, hd, rfl⟩

end DefaultSpec

namespace DefaultsLayer

open Json

variable {l l' : DefaultsLayer} {r : Path} {f : AttributeFilter} {n : ℕ}

def reread (l : DefaultsLayer) : DefaultsLayer :=
  ⟨l.patterns.map fun (pattern, keys) =>
    (pattern, keys.map fun (key, spec) => (key, spec.reread))⟩

def text (sp : Spacing) (l : DefaultsLayer) : String := String.ofList (write sp 0 l.toJson)

lemma keysOfJson?_toJson {keys : NameMap DefaultSpec} (hk : keys.Sorted) :
    keysOfJson? (.obj (keys.map fun (k, spec) => (k, spec.toJson))) =
      some (keys.map fun (k, spec) => (k, spec.reread)) := by
  rw [keysOfJson?, List.map_map]
  exact congrArg some (NameMap.ofList_of_sorted (hk.map DefaultSpec.reread))

lemma ofJson?_toJson (hl : l.Ordered) (hr : l.toJson.readable = true) :
    ofJson? l.toJson = if l.toJson.depth ≤ maxDepth then some l.reread else none := by
  have hpatterns : (l.patterns.map fun (k, keys) =>
        (k, obj (keys.map fun (k, spec) => (k, spec.toJson)))).mapM
      (fun (k, v) => (keysOfJson? v).map (k, ·)) = some l.reread.patterns := by
    rw [List.mapM_map]
    exact mapM_eq_some_map fun x hx =>
      congrArg (Option.map (x.1, ·)) (keysOfJson?_toJson (hl.keys x hx))
  have hsorted : NameMap.ofList l.reread.patterns = l.reread.patterns :=
    NameMap.ofList_of_sorted (hl.patterns.map _)
  unfold ofJson?
  rw [hr]
  by_cases hd : l.toJson.depth ≤ maxDepth
  · rw [if_neg (by simpa using hd), if_pos hd]
    dsimp only [toJson]
    rw [hpatterns]
    exact congrArg (fun patterns => some (DefaultsLayer.mk patterns)) hsorted
  · rw [if_pos (by simpa using hd), if_neg hd]

lemma specs_reread (l : DefaultsLayer) :
    l.reread.specs = l.specs.map fun x => (x.1, x.2.1, x.2.2.reread) := by
  simp only [specs, reread, List.flatMap_map, List.map_flatMap, List.map_map]
  rfl

lemma depth_toJson_le :
    l.toJson.depth ≤ n + 2 ↔ ∀ x ∈ l.specs, x.2.2.toJson.depth ≤ n := by
  rw [toJson, depth, Nat.add_le_add_iff_right, depthMembers_le, List.forall_mem_map]
  simp only [depth, Nat.add_le_add_iff_right, depthMembers_le, List.forall_mem_map, specs,
    List.forall_mem_flatMap]

section Specs

variable {pattern key : String} {spec : DefaultSpec} {v : Json}
  {xs : List (String × String × Json)}

lemma mem_specs_iff : (pattern, key, spec) ∈ l.specs ↔
    ∃ keys, (pattern, keys) ∈ l.patterns ∧ (key, spec) ∈ keys := by
  simp [specs]

lemma exists_of_mem_specs (h : ofJson? v = some l) (hs : (pattern, key, spec) ∈ l.specs) :
    ∃ w, spec = .ofJson w ∧ w.depth + 2 ≤ v.depth := by
  obtain ⟨keys, hkeys, hspec⟩ := mem_specs_iff.1 hs
  unfold ofJson? at h
  split at h
  · cases h
  · cases v with
    | obj members =>
      obtain ⟨patterns, hp, h⟩ := Option.bind_eq_some_iff.1 h
      obtain rfl := Option.some.inj h
      obtain ⟨⟨_, u⟩, hu, hkeys⟩ := exists_of_mem_mapM hp (NameMap.mem_ofList hkeys)
      obtain ⟨_, hkeys, heq⟩ := Option.map_eq_some_iff.1 hkeys
      cases heq
      cases u with
      | obj ms =>
        obtain rfl := Option.some.inj hkeys
        obtain ⟨⟨_, w⟩, hw, heq⟩ := List.mem_map.1 (NameMap.mem_ofList hspec)
        cases heq
        have hlt : w.depth < (obj ms).depth := depth_lt_of_mem hw
        have hlt' : (obj ms).depth < (obj members).depth := depth_lt_of_mem hu
        exact ⟨w, rfl, by omega⟩
      | _ => cases hkeys
    | _ => cases h

lemma depth_le_of_ofJson? (h : ofJson? v = some l) : l.toJson.depth ≤ maxDepth := by
  have hv : v.depth ≤ 125 + 2 := by
    unfold ofJson? at h
    split at h
    · cases h
    · rename_i hd
      simp only [Bool.or_eq_true, decide_eq_true_eq, not_or, not_lt] at hd
      exact hd.2
  refine depth_toJson_le.2 fun ⟨pattern, key, spec⟩ hs => ?_
  obtain ⟨w, rfl, hw⟩ := exists_of_mem_specs h hs
  exact (DefaultSpec.depth_toJson_ofJson_le w).trans (by omega)

lemma mem_specs_insert (hl : l.Ordered) {pattern' key' : String}
    (h : (pattern', key', spec) ∈ (l.insert pattern key v).specs) :
    spec = .plain v ∨ (pattern', key', spec) ∈ l.specs := by
  obtain ⟨keys, hkeys, hspec⟩ := mem_specs_iff.1 h
  rcases NameMap.mem_insert hkeys with heq | hkeys
  · cases heq
    rcases NameMap.mem_insert hspec with heq | hspec
    · cases heq
      exact .inl rfl
    · cases hfind : l.patterns.find? pattern with
      | none =>
        rw [hfind] at hspec
        cases hspec
      | some keys =>
        rw [hfind] at hspec
        exact .inr (mem_specs_iff.2 ⟨keys, (NameMap.find?_eq_some hl.patterns).1 hfind, hspec⟩)
  · exact .inr (mem_specs_iff.2 ⟨keys, hkeys, hspec⟩)

def insertAll (l : DefaultsLayer) (xs : List (String × String × Json)) : DefaultsLayer :=
  xs.foldl (fun l (pattern, key, v) => l.insert pattern key v) l

lemma Ordered.insertAll (hl : l.Ordered) : (l.insertAll xs).Ordered := by
  induction xs generalizing l with
  | nil => exact hl
  | cons x xs ih => exact ih (hl.insert x.1 x.2.1 x.2.2)

lemma depth_insertAll_le (hl : l.Ordered) (hd : l.toJson.depth ≤ n + 2)
    (hx : ∀ x ∈ xs, x.2.2.depth ≤ n) : (l.insertAll xs).toJson.depth ≤ n + 2 := by
  induction xs generalizing l with
  | nil => exact hd
  | cons x xs ih =>
    obtain ⟨hx, hxs⟩ := List.forall_mem_cons.1 hx
    refine ih (hl.insert x.1 x.2.1 x.2.2) (depth_toJson_le.2 fun y hy => ?_) hxs
    rcases mem_specs_insert hl hy with hspec | hy
    · rw [hspec]
      exact hx
    · exact depth_toJson_le.1 hd y hy

end Specs

lemma read?_text_eq (hl : l.Ordered) (hn : l.toJson.Faithful) {sp : Spacing} (hb : sp.Blank) :
    read? (l.text sp) = if l.toJson.depth ≤ maxDepth then some l.reread else none := by
  rw [read?, text, parse_write hb hn]
  exact ofJson?_toJson hl hn.readable

/-- A plain value has the form of a detailed one, and would be on offer if it were that. -/
def Ambiguous (l : DefaultsLayer) (r : Path) (f : AttributeFilter) : Prop :=
  ∃ pattern key v d, (pattern, key, .plain v) ∈ l.specs ∧ DefaultSpec.detailed? v = some d ∧
    (offer? r f (pattern, key, d)).isSome

lemma offer?_congr {pattern key : String} {spec spec' : DefaultSpec}
    (h : spec.entry? r key = spec'.entry? r key) :
    offer? r f (pattern, key, spec) = offer? r f (pattern, key, spec') := by
  rw [offer?, offer?, h]

lemma offer?_eq_none {pattern key : String} {spec : DefaultSpec} (h : spec.entry? r key = none) :
    offer? r f (pattern, key, spec) = none := by
  rw [offer?, h]
  exact ite_self _

lemma applicable_reread (l : DefaultsLayer) : l.reread.applicable r f =
    l.specs.filterMap fun x => offer? r f (x.1, x.2.1, x.2.2.reread) := by
  rw [applicable_eq, specs_reread, List.filterMap_map, Function.comp_def]

lemma applicable_reread_iff :
    l.reread.applicable r f = l.applicable r f ↔ ¬ l.Ambiguous r f := by
  rw [applicable_reread, applicable_eq, filterMap_eq_filterMap_iff fun ⟨pattern, key, spec⟩ _ =>
    (spec.entry?_reread r key).imp offer?_congr fun h => offer?_eq_none h.1]
  constructor
  · rintro hsame ⟨pattern, key, v, d, hmem, hd, he⟩
    have hread : (DefaultSpec.plain v).reread = d := by
      rw [DefaultSpec.reread, DefaultSpec.ofJson, DefaultSpec.toJson, hd]
      rfl
    obtain ⟨members, -, -, -, -, rfl, -⟩ := DefaultSpec.of_detailed? hd
    have hnone : offer? r f (pattern, key, .plain (.obj members)) = none := offer?_eq_none rfl
    have heq := hsame _ hmem
    dsimp only at heq
    rw [← hread, heq, hnone] at he
    cases he
  · rintro hnot ⟨pattern, key, spec⟩ hmem
    rcases spec.entry?_reread r key with heq | ⟨hnone, v, d, rfl, hd, hread⟩
    · exact offer?_congr heq
    · dsimp only
      rw [hread, offer?_eq_none hnone]
      exact Option.not_isSome_iff_eq_none.1 fun he => hnot ⟨pattern, key, v, d, hmem, hd, he⟩

/-- A layer survives its texts for as long as they do not nest too deeply, and then it answers as
before wherever no plain value is taken for a detailed one. -/
theorem read?_written {source : String} (h : read? source = some l)
    (xs : List (String × String × Json)) (hn : (l.insertAll xs).toJson.Faithful) {sp : Spacing}
    (hb : sp.Blank) :
    ((∃ l', read? ((l.insertAll xs).text sp) = some l') ↔
      (l.insertAll xs).toJson.depth ≤ maxDepth) ∧
    ((∀ x ∈ xs, x.2.2.depth + 2 ≤ maxDepth) → (l.insertAll xs).toJson.depth ≤ maxDepth) ∧
    ∀ l', read? ((l.insertAll xs).text sp) = some l' → ∀ r f,
      (l'.applicable r f = (l.insertAll xs).applicable r f ↔ ¬ (l.insertAll xs).Ambiguous r f) ∧
      (¬ (l.insertAll xs).Ambiguous r f → ∀ name below above,
        LayeredDefaults.query ⟨below ++ (name, l') :: above⟩ r f =
          LayeredDefaults.query ⟨below ++ (name, l.insertAll xs) :: above⟩ r f) := by
  have hl : l.Ordered := (Made.read h).ordered
  obtain ⟨v, -, hv⟩ := Option.bind_eq_some_iff.1 h
  have hread := read?_text_eq hl.insertAll hn hb
  refine ⟨?_, fun hx => ?_, fun l' hl' r f => ?_⟩
  · rw [hread]
    split <;> simp_all
  · exact depth_insertAll_le (n := 125) hl (depth_le_of_ofJson? hv) fun x hx' =>
      Nat.le_of_add_le_add_right (hx x hx')
  · rw [hread] at hl'
    split at hl'
    · obtain rfl := Option.some.inj hl'
      refine ⟨applicable_reread_iff, fun hnot name below above => ?_⟩
      simp only [LayeredDefaults.query, List.flatMap_append, List.flatMap_cons]
      rw [applicable_reread_iff.2 hnot]
    · cases hl'

def preset : DefaultsLayer := ⟨[("icc", [("intent", .detailed (.int 1) false false false)])]⟩

def notes : List (String × String × Json) :=
  [("icc", "note", .obj [("value", .null)]), ("icc", "gain", .int 2)]

lemma insertAll_notes : preset.insertAll notes = ⟨[("icc", [("gain", .plain (.int 2)),
    ("intent", .detailed (.int 1) false false false),
    ("note", .plain (.obj [("value", .null)]))])]⟩ := rfl

lemma read?_preset :
    read? "\x7b\"icc\":\x7b\"intent\":\x7b\"value\":1\x7d\x7d\x7d" = some preset := by
  cbv

theorem read?_written_notes : ∃ l', read? ((preset.insertAll notes).text .compact) = some l' ∧
    ∀ r f, LayeredDefaults.query ⟨[("user", l')]⟩ r f =
      LayeredDefaults.query ⟨[("user", preset.insertAll notes)]⟩ r f := by
  have hn : (preset.insertAll notes).toJson.Faithful := by
    simp [insertAll_notes, toJson, DefaultSpec.toJson, Faithful, FaithfulMembers]
  obtain ⟨hback, hdepth, hsame⟩ := read?_written read?_preset notes hn Spacing.blank_compact
  have hshallow : ∀ x ∈ notes, x.2.2.depth + 2 ≤ maxDepth := by
    simp [notes, depth, depthMembers, maxDepth]
  obtain ⟨l', hl'⟩ := hback.2 (hdepth hshallow)
  refine ⟨l', hl', fun r f => (hsame l' hl' r f).2 ?_ "user" [] []⟩
  rintro ⟨pattern, key, v, d, hmem, hd, he⟩
  rw [insertAll_notes] at hmem
  simp only [specs, List.flatMap_cons, List.flatMap_nil, List.append_nil, List.map_cons,
    List.map_nil, List.mem_cons, List.not_mem_nil, or_false, Prod.mk.injEq,
    DefaultSpec.plain.injEq, reduceCtorEq, and_false, false_or] at hmem
  rcases hmem with ⟨-, -, rfl⟩ | ⟨-, -, rfl⟩
  · cases hd
  · obtain rfl := Option.some.inj hd
    rw [offer?_eq_none rfl] at he
    cases he

def nested : ℕ → Json
  | 0 => .null
  | n + 1 => .arr [nested n]

lemma depth_nested (n : ℕ) : (nested n).depth = n := by
  induction n with
  | zero => rfl
  | succ n ih => simp [nested, depth, depthItems, ih]

lemma faithful_nested (n : ℕ) : (nested n).Faithful := by
  induction n with
  | zero => trivial
  | succ n ih => exact ⟨ih, trivial⟩

lemma read?_nested : read? ((empty.insert "p" "k" (nested 126)).text .compact) = none := by
  have hdepth : ¬ (empty.insert "p" "k" (nested 126)).toJson.depth ≤ maxDepth := fun h => by
    have hle := (depth_toJson_le (n := 125)).1 h ("p", "k", .plain (nested 126))
      (mem_specs_iff.2 ⟨_, List.mem_singleton_self _, List.mem_singleton_self _⟩)
    have hdeep : (nested 126).depth = 126 := depth_nested 126
    dsimp only [DefaultSpec.toJson] at hle
    omega
  have hn : (empty.insert "p" "k" (nested 126)).toJson.Faithful :=
    ⟨⟨faithful_nested 126, trivial⟩, trivial⟩
  rw [read?_text_eq (Made.empty.insert "p" "k" (nested 126)).ordered hn Spacing.blank_compact,
    if_neg hdepth]

def repeated : DefaultsLayer := ⟨[("p", [("k", .plain (.obj [("value", .int 2)]))])]⟩

lemma read?_repeated :
    read? "\x7b\"p\":\x7b\"k\":\x7b\"value\":1,\"value\":2\x7d\x7d\x7d" = some repeated := by
  cbv

lemma faithful_repeated : repeated.toJson.Faithful :=
  ⟨⟨⟨⟨by decide, by decide⟩, trivial⟩, trivial⟩, trivial⟩

lemma read?_text_repeated : read? (repeated.text .compact) = some repeated.reread :=
  read?_text_eq (Made.read read?_repeated).ordered faithful_repeated Spacing.blank_compact

theorem not_survives :
    (¬ ∀ source l l', read? source = some l → l.toJson.Faithful →
      read? (l.text .compact) = some l' → ∀ r f,
        LayeredDefaults.query ⟨[("user", l')]⟩ r f = LayeredDefaults.query ⟨[("user", l)]⟩ r f) ∧
    ¬ ∀ l : DefaultsLayer, l.Made → l.toJson.Faithful →
      ∃ l', read? (l.text .compact) = some l' := by
  refine ⟨fun hsame => ?_, fun hback => ?_⟩
  · have hquery := hsame _ repeated repeated.reread read?_repeated faithful_repeated
      read?_text_repeated ⟨"p"⟩ .all
    have hne : LayeredDefaults.query ⟨[("user", repeated.reread)]⟩ ⟨"p"⟩ .all ≠
        LayeredDefaults.query ⟨[("user", repeated)]⟩ ⟨"p"⟩ .all := by
      decide +kernel
    exact hne hquery
  · obtain ⟨l', hl'⟩ := hback (empty.insert "p" "k" (nested 126)) (Made.empty.insert ..)
      ⟨⟨faithful_nested 126, trivial⟩, trivial⟩
    rw [read?_nested] at hl'
    cases hl'

end DefaultsLayer

end ColourPipeline
