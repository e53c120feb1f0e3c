import ColourPipeline.Proofs.Profile
import ColourPipeline.Proofs.Pull.Tends

/-! Profiles that are loaded once and found again. -/

namespace ColourPipeline

namespace Registry

def Builtin (r : Registry) : Prop :=
  ∀ q ∈ r.providers, ∃ e ∈ builtinServices, q.registration = .parse e.1 ∧ q.service = e.2

lemma builtin_empty : Registry.empty.Builtin := fun _ h => by cases h

lemma Builtin.register {r r' : Registry} (h : r.Builtin) {e : String × Service}
    (he : e ∈ builtinServices) {v : Version} (hr : r.register e.1 v e.2 = .ok r') :
    r'.Builtin := by
  rw [Registry.register] at hr
  split at hr
  · cases hr
    intro q hq
    rcases List.mem_append.1 hq with hq | hq
    · exact h q hq
    · obtain rfl := List.mem_singleton.1 hq
      exact ⟨e, he, rfl, rfl⟩
  · cases hr

lemma Builtin.registerBuiltin {r r' : Registry} (h : r.Builtin)
    (hr : r.registerBuiltin = .ok r') : r'.Builtin := by
  suffices hl : ∀ es ⊆ builtinServices, ∀ r : Registry, r.Builtin →
      es.foldlM (fun r e => r.register e.1 builtinVersion e.2) r = .ok r' → r'.Builtin from
    hl _ (List.Subset.refl _) r h hr
  intro es hes
  induction es with
  | nil =>
    intro r h hr
    cases hr
    exact h
  | cons e es ih =>
    intro r h hr
    rw [List.foldlM_cons] at hr
    cases hr' : r.register e.1 builtinVersion e.2 with
    | error err =>
      rw [hr'] at hr
      cases hr
    | ok r₁ =>
      rw [hr'] at hr
      have he : e ∈ builtinServices := hes List.mem_cons_self
      exact ih (fun _ h => hes (List.mem_cons_of_mem _ h)) r₁ (h.register he hr') hr

lemma Builtin.registration (h : Registry.Builtin r) {q : Provider} (hq : q ∈ r.providers)
    (hc : q.category = .dataCodec) : q.registration = .parse "org/tincture/colour/icc.blob" := by
  obtain ⟨e, he, hreg, hs⟩ := h q hq
  rw [Provider.category, hs] at hc
  simp only [builtinServices, List.mem_cons, List.not_mem_nil, or_false] at he
  rcases he with rfl | rfl | rfl | rfl | rfl | rfl
  · cases hc
  · cases hc
  · cases hc
  · cases hc
  · exact hreg
  · cases hc

lemma first_eq_ok {r : Registry} {pattern : String} {c : ProviderCategory} {q : Provider}
    (h : r.first pattern c = .ok q) : q ∈ r.providers ∧ q.category = c := by
  rw [first] at h
  split at h
  · rename_i q' hf
    obtain rfl : q' = q := Except.ok.inj h
    have hm := List.find?_some hf
    rw [isMatch, Bool.and_eq_true, beq_iff_eq] at hm
    exact ⟨List.mem_of_find?_eq_some hf, hm.1⟩
  · cases h

lemma first_eq_error_iff {r : Registry} {pattern : String} {c : ProviderCategory} :
    (∃ e, r.first pattern c = .error e) ↔
      ∀ q ∈ r.providers, q.category = c → ¬ (Path.parse pattern).selects q.registration := by
  rw [first]
  cases hf : r.providers.find? (isMatch (.parse pattern) c) with
  | none =>
    rw [List.find?_eq_none] at hf
    refine iff_of_true ⟨_, rfl⟩ fun q hq hc hs => hf q hq ?_
    rw [isMatch, hc, hs, beq_self_eq_true, Bool.and_self]
  | some q =>
    refine iff_of_false (fun ⟨e, he⟩ => by cases he) fun hn => ?_
    have hm := List.find?_some hf
    rw [isMatch, Bool.and_eq_true, beq_iff_eq] at hm
    exact hn q (List.mem_of_find?_eq_some hf) hm.1 hm.2

end Registry

def profileText (bs : Bytes) : String :=
  (Path.parse "org/tincture/colour/icc.blob").text ++ ":" ++ Text.Hex.encode (Digest.sha256 bs)

def profileKey (bs : Bytes) : CacheKey := .ofText (profileText bs)

lemma toList_profileText (bs : Bytes) : (profileText bs).toList =
    "org/tincture/colour/icc.blob:".toList ++ (Text.Hex.encode (Digest.sha256 bs)).toList := by
  have ht : (Path.parse "org/tincture/colour/icc.blob").text ++ ":" =
      "org/tincture/colour/icc.blob:" := by decide
  rw [profileText, ht, String.toList_append]

lemma profileText_ne_gainText (bs : Bytes) (r : Path) (s : OptionSet) :
    profileText bs ≠ gainText r s := by
  -- A gain's text ends with a list of options, and there is no list in a profile's.
  have hg : ']' ∈ (gainText r s).toList := by
    rw [gainText, String.toList_append, OptionSet.compactText, OptionSet.toJson, Json.compact,
      String.toList_ofList]
    refine List.mem_append_right _ ?_
    cases s.entries.map (·.toJson) <;> simp [Json.write]
  have hp : ']' ∉ (profileText bs).toList := by
    rw [toList_profileText, List.mem_append, not_or]
    exact ⟨by decide, Text.Hex.notMem_encode (by decide) _⟩
  exact fun h => hp (h ▸ hg)

lemma sha256_of_profileText {bs bs' : Bytes} (h : profileText bs = profileText bs') :
    Digest.sha256 bs = Digest.sha256 bs' := by
  have ht := congrArg String.toList h
  rw [toList_profileText, toList_profileText, List.append_cancel_left_eq] at ht
  exact Text.Hex.encode_inj (String.toList_inj.1 ht)

lemma injOn_profileKey {payloads : Set Bytes} {used : Uses}
    (hp : Set.InjOn Digest.sha256 payloads)
    (hk : Set.InjOn CacheKey.ofText (profileText '' payloads ∪ used.texts)) :
    Set.InjOn profileKey payloads := fun x hx y hy hxy =>
  hp hx hy (sha256_of_profileText (hk (.inl ⟨x, hx, rfl⟩) (.inl ⟨y, hy, rfl⟩) hxy))

lemma avoid_profileKey {payloads : Set Bytes} {used : Uses}
    (hk : Set.InjOn CacheKey.ofText (profileText '' payloads ∪ used.texts)) :
    used.Avoid (profileKey '' payloads) := by
  rintro text ht ⟨x, hx, hxt⟩
  have htext : profileText x = text := hk (.inl ⟨x, hx, rfl⟩) (.inr ht) hxt
  obtain ⟨r, s, -, rfl⟩ := ht
  exact profileText_ne_gainText x r s htext

def Entity.IsProfileOf (e : Entity) (bs : Bytes) : Prop :=
  ∃ p, Profile.parse bs = .ok p ∧ p.bytes = bs.take (Profile.declaredSize bs) ∧
    e.content = .profile p ∧ e.envelope.kind = .profile ∧
    e.envelope.digest = some (Digest.sha256 p.bytes) ∧
    e.envelope.names.description = some p.summary

namespace ObjectCache

variable {c : ObjectCache} {keys : Set CacheKey} {fits : CacheKey → Entity → Prop} {id : SlotId}
  {bs : Bytes}

def sought (c : ObjectCache) (text : String) : SlotId × ObjectCache :=
  ((c.lookup text).1, (c.lookup text).2.drop (c.lookup text).1)

lemma tends_sought {text : String} : c.Tends keys fits (c.sought text).2 :=
  (tends_lookup text).trans (tends_drop _)

lemma filed?_sought (text : String) (k : CacheKey) : (c.sought text).2.filed? k =
    if k = CacheKey.ofText text then some (c.sought text).1 else c.filed? k := by
  rw [sought, filed?_drop, filed?_lookup]

lemma key?_sought (hc : c.Filing) (text : String) :
    (c.sought text).2.key? (c.sought text).1 = some (CacheKey.ofText text) :=
  (@tends_sought c ∅ (fun _ _ => False) text).filing hc _ _
    ((filed?_sought text _).trans (if_pos rfl))

lemma sought_of_filed {text : String} (h : c.filed? (CacheKey.ofText text) = some id) :
    (c.sought text).1 = id := by
  rw [sought, lookup_of_filed h]

lemma entry?_sought (text : String) : entry? (c.sought text).2 id = c.entry? id := by
  rw [sought, entry?_drop, entry?_lookup]

def opened (c : ObjectCache) (bs : Bytes) : SlotId × ObjectCache :=
  ((c.lookup (profileText bs)).1,
    (c.lookup (profileText bs)).2.drop (c.lookup (profileText bs)).1)

lemma tends_opened : c.Tends keys fits (c.opened bs).2 := tends_sought

lemma filed?_opened : (c.opened bs).2.filed? (profileKey bs) = some (c.opened bs).1 :=
  (filed?_sought _ _).trans (if_pos rfl)

lemma key?_opened (hc : c.Filing) :
    (c.opened bs).2.key? (c.opened bs).1 = some (profileKey bs) := key?_sought hc _

lemma opened_of_filed (h : c.filed? (profileKey bs) = some id) : (c.opened bs).1 = id :=
  sought_of_filed h

lemma entry?_opened : entry? (c.opened bs).2 id = c.entry? id := entry?_sought _

def shelved (c : ObjectCache) (p : Profile) : Entity :=
  (c.fresh.2.kept (.ofProfile c.fresh.1 p)).1

lemma isProfileOf_shelved {p : Profile} (h : Profile.parse bs = .ok p) :
    (c.shelved p).IsProfileOf bs :=
  ⟨p, h, Profile.bytes_of_parse h, rfl, rfl, rfl, rfl⟩

end ObjectCache

namespace Host

variable {h : Host} {pattern : String} {bs : Bytes} {flags : UInt32} {c : ObjectCache}

lemma loadInto_eq {slot : SlotId} {k : CacheKey} (hs : c.key? slot = some k) :
    loadInto slot bs flags c =
      match Profile.parse bs with
      | .error f => .error (.codec f) c
      | .ok p => .ok (c.shelved p) (c.fresh.2.set slot (.ofProfile c.fresh.1 p)) := by
  have he (p : Profile) :
      ObjectCache.entry? (c.fresh.2.set slot (.ofProfile c.fresh.1 p)) slot =
        some (c.shelved p) := by
    have hlt : slot < c.fresh.2.slots.length := ObjectCache.lt_of_key? hs
    rw [ObjectCache.entry?_set hlt, if_pos rfl, ObjectCache.shelved]
  simp only [loadInto, loadProfile, bind, EStateM.bind, Work.lift, get, getThe, MonadStateOf.get,
    EStateM.get, set, EStateM.set]
  cases Profile.parse bs with
  | error f => rfl
  | ok p =>
    dsimp only [codec, Except.map]
    rw [he p]
    rfl

lemma load_of_error {e : PipelineError} (he : h.registry.first pattern .dataCodec = .error e) :
    h.load pattern bs flags c = .error e c := by
  simp only [load, bind, EStateM.bind, Work.lift, he]

lemma load_of_ok {q : Provider} (hq : h.registry.first pattern .dataCodec = .ok q) :
    h.load pattern bs flags c =
      match c.entry? (c.sought (loadKey q bs)).1 with
      | some e => .ok e (c.sought (loadKey q bs)).2
      | none => loadInto (c.sought (loadKey q bs)).1 bs flags (c.sought (loadKey q bs)).2 := by
  simp only [load, bind, EStateM.bind, Work.lift, hq, get, getThe, MonadStateOf.get, EStateM.get,
    set, EStateM.set]
  rw [ObjectCache.entry?_lookup, ObjectCache.sought]
  dsimp only
  cases c.entry? (c.lookup (loadKey q bs)).1 <;> rfl

lemma load_eq {q : Provider} (hb : h.registry.Builtin)
    (hq : h.registry.first pattern .dataCodec = .ok q) : h.load pattern bs flags c =
      match c.entry? (c.opened bs).1 with
      | some e => .ok e (c.opened bs).2
      | none => loadInto (c.opened bs).1 bs flags (c.opened bs).2 := by
  have hk : loadKey q bs = profileText bs := by
    rw [loadKey, hb.registration (Registry.first_eq_ok hq).1 (Registry.first_eq_ok hq).2,
      profileText]
  rw [load_of_ok hq, hk]
  rfl

inductive Loading (h : Host) (pattern : String) (bs : Bytes) (c : ObjectCache) :
    EStateM.Result PipelineError ObjectCache Entity → Prop
  | unmatched {e : PipelineError} (hq : h.registry.first pattern .dataCodec = .error e) :
    Loading h pattern bs c (.error e c)
  | found {q : Provider} {e : Entity} (hq : h.registry.first pattern .dataCodec = .ok q)
    (he : c.entry? (c.opened bs).1 = some e) : Loading h pattern bs c (.ok e (c.opened bs).2)
  | refused {q : Provider} {f : CodecFault} (hq : h.registry.first pattern .dataCodec = .ok q)
    (he : c.entry? (c.opened bs).1 = none) (hp : Profile.parse bs = .error f) :
    Loading h pattern bs c (.error (.codec f) (c.opened bs).2)
  | read {q : Provider} {p : Profile} (hq : h.registry.first pattern .dataCodec = .ok q)
    (he : c.entry? (c.opened bs).1 = none) (hp : Profile.parse bs = .ok p) :
    Loading h pattern bs c (.ok ((c.opened bs).2.shelved p)
      ((c.opened bs).2.fresh.2.set (c.opened bs).1 (.ofProfile (c.opened bs).2.fresh.1 p)))

lemma loading (hb : h.registry.Builtin) (hc : c.Filing) :
    Loading h pattern bs c (h.load pattern bs flags c) := by
  cases hq : h.registry.first pattern .dataCodec with
  | error e =>
    rw [load_of_error hq]
    exact .unmatched hq
  | ok q =>
    rw [load_eq hb hq]
    cases he : c.entry? (c.opened bs).1 with
    | some e => exact .found hq he
    | none =>
      dsimp only
      rw [loadInto_eq (ObjectCache.key?_opened hc)]
      cases hp : Profile.parse bs with
      | error f => exact .refused hq he hp
      | ok p => exact .read hq he hp

end Host

namespace ObjectCache

variable {payloads : Set Bytes} {c c' : ObjectCache} {bs : Bytes}

def Minds (payloads : Set Bytes) (c c' : ObjectCache) : Prop :=
  c.Tends (profileKey '' payloads)
    (fun k e => ∀ bs ∈ payloads, profileKey bs = k → e.IsProfileOf bs) c'

structure Shelved (payloads : Set Bytes) (c : ObjectCache) : Prop where
  filing : c.Filing
  profiles : ∀ bs ∈ payloads, ∀ id e, c.key? id = some (profileKey bs) → c.entry? id = some e →
    e.IsProfileOf bs

lemma shelved_empty : Shelved payloads {} where
  filing _ _ h := by cases h
  profiles _ _ _ _ h := by cases h

lemma Shelved.of_minds (h : c.Shelved payloads) (hm : c.Minds payloads c') :
    c'.Shelved payloads where
  filing := hm.filing h.filing
  profiles bs hbs id e hk he := by
    rcases hm.fits _ ⟨bs, hbs, rfl⟩ id e hk he with hc | hf
    · obtain ⟨k, hkey⟩ := exists_key?_of_entry? hc
      obtain rfl : k = profileKey bs := Option.some.inj ((hm.key id k hkey).symm.trans hk)
      exact h.profiles bs hbs id e hkey hc
    · exact hf bs hbs rfl

lemma minds_opened : c.Minds payloads (c.opened bs).2 := tends_opened

lemma Shelved.isProfileOf (h : c.Shelved payloads) (hbs : bs ∈ payloads) {e : Entity}
    (he : c.entry? (c.opened bs).1 = some e) : e.IsProfileOf bs :=
  (h.of_minds minds_opened).profiles bs hbs _ e (key?_opened h.filing) (entry?_opened.trans he)

end ObjectCache

namespace Host

variable {h : Host} {payloads : Set Bytes} {pattern : String} {bs : Bytes} {flags : UInt32}
  {c : ObjectCache} (hb : h.registry.Builtin) (hc : c.Shelved payloads)

include hb hc

lemma minds_load (hk : Set.InjOn profileKey payloads) (hbs : bs ∈ payloads) :
    c.Minds payloads (Work.left (h.load pattern bs flags c)) := by
  have hl : Loading h pattern bs c (h.load pattern bs flags c) := loading hb hc.filing
  have ho : c.Minds payloads (c.opened bs).2 := ObjectCache.minds_opened
  generalize h.load pattern bs flags c = m at hl
  cases hl with
  | unmatched hq => exact .refl c
  | found hq he => exact ho
  | refused hq he hp => exact ho
  | @read q p hq he hp =>
    -- The slot has nothing in it yet, and its key is the key of these bytes alone.
    have hset : (c.opened bs).2.fresh.2.Minds payloads ((c.opened bs).2.fresh.2.set
        (c.opened bs).1 (.ofProfile (c.opened bs).2.fresh.1 p)) := by
      refine ObjectCache.tends_set (ObjectCache.entry?_opened.trans he) ?_
      rintro k - hslot bs' hbs' rfl
      have hkey : some (profileKey bs) = some (profileKey bs') :=
        (ObjectCache.key?_opened hc.filing).symm.trans hslot
      obtain rfl := hk hbs hbs' (Option.some.inj hkey)
      exact ObjectCache.isProfileOf_shelved hp
    exact ho.trans (ObjectCache.tends_fresh.trans hset)

lemma load_eq_error_iff (hbs : bs ∈ payloads) :
    (∃ e c', h.load pattern bs flags c = .error e c') ↔
      (∀ q ∈ h.registry.providers, q.category = .dataCodec →
        ¬ (Path.parse pattern).selects q.registration) ∨ ∃ f, Profile.parse bs = .error f := by
  have hl : Loading h pattern bs c (h.load pattern bs flags c) := loading hb hc.filing
  rw [← Registry.first_eq_error_iff]
  generalize h.load pattern bs flags c = m at hl
  cases hl with
  | unmatched hq => exact iff_of_true ⟨_, _, rfl⟩ (.inl ⟨_, hq⟩)
  | refused hq he hp => exact iff_of_true ⟨_, _, rfl⟩ (.inr ⟨_, hp⟩)
  | found hq he =>
    obtain ⟨p, hp, -⟩ := hc.isProfileOf hbs he
    refine iff_of_false (fun ⟨e, c', h⟩ => by cases h) ?_
    rw [hq, hp]
    rintro (⟨e, h⟩ | ⟨f, h⟩) <;> cases h
  | read hq he hp =>
    refine iff_of_false (fun ⟨e, c', h⟩ => by cases h) ?_
    rw [hq, hp]
    rintro (⟨e, h⟩ | ⟨f, h⟩) <;> cases h

lemma load_ok {e : Entity} {c' : ObjectCache} (hbs : bs ∈ payloads)
    (hl : h.load pattern bs flags c = .ok e c') : e.IsProfileOf bs ∧
      ∃ slot, c'.filed? (profileKey bs) = some slot ∧ c'.key? slot = some (profileKey bs) ∧
        c'.entry? slot = some e := by
  have hl' : Loading h pattern bs c (h.load pattern bs flags c) := loading hb hc.filing
  rw [hl] at hl'
  have hkey : (c.opened bs).2.key? (c.opened bs).1 = some (profileKey bs) :=
    ObjectCache.key?_opened hc.filing
  cases hl' with
  | found hq he =>
    exact ⟨hc.isProfileOf hbs he, _, ObjectCache.filed?_opened, hkey,
      ObjectCache.entry?_opened.trans he⟩
  | read hq he hp =>
    refine ⟨ObjectCache.isProfileOf_shelved hp, (c.opened bs).1, ?_, ?_, ?_⟩
    · rw [ObjectCache.filed?_set]
      exact ObjectCache.filed?_opened
    · rw [ObjectCache.key?_set]
      exact hkey
    · have hlt : (c.opened bs).1 < (c.opened bs).2.fresh.2.slots.length :=
        ObjectCache.lt_of_key? hkey
      rw [ObjectCache.entry?_set hlt, if_pos rfl, ObjectCache.shelved]

lemma load_of_filed {e e' : Entity} {c' : ObjectCache} {slot : SlotId}
    (hf : c.filed? (profileKey bs) = some slot) (he : c.entry? slot = some e)
    (hl : h.load pattern bs flags c = .ok e' c') : e' = e := by
  have hl' : Loading h pattern bs c (h.load pattern bs flags c) := loading hb hc.filing
  rw [hl] at hl'
  rw [← ObjectCache.opened_of_filed hf] at he
  cases hl' with
  | found hq he' => exact Option.some.inj (he'.symm.trans he)
  | read hq he' hp =>
    rw [he'] at he
    cases he

end Host

inductive Host.Job where
  | load (pattern : String) (bs : Bytes) (flags : UInt32)
  | render (m : Memory) (c : Conversion) (limit : ℕ) (t : Ticket)
  | act (a : Act)

def Pipeline.Permits (payloads : Set Bytes) (used : Uses) (p : Pipeline) : Host.Job → Prop
  | .load _ bs _ => bs ∈ payloads
  | .render _ c _ _ => Pull.Covers used (p.network.passed c)
  | .act (.request _ r _) => Pull.Covers used (p.network.passes r)
  | .act (.fill id _) => ∀ bs ∈ payloads, p.cache.key? id ≠ some (profileKey bs)
  | .act _ => True

namespace Host

def perform (h : Host) (p : Pipeline) : Job → Pipeline
  | .load pattern bs flags => p.onCache fun c => Work.left (h.load pattern bs flags c)
  | .render _ c limit t => (c.render limit (p, t)).state.1
  | .act a => p.act a

def after (h : Host) (p : Pipeline) (jobs : List Job) : Pipeline := jobs.foldl h.perform p

def Permits (h : Host) (payloads : Set Bytes) (used : Uses) : Pipeline → List Job → Prop
  | _, [] => True
  | p, d :: ds => p.Permits payloads used d ∧ h.Permits payloads used (h.perform p d) ds

variable {h : Host} {payloads : Set Bytes} {used : Uses} {p : Pipeline}

lemma cache_perform_load (pattern : String) (bs : Bytes) (flags : UInt32) :
    (h.perform p (.load pattern bs flags)).cache =
      Work.left (h.load pattern bs flags p.cache) := rfl

lemma minds_act (hu : used.Avoid (profileKey '' payloads)) (hc : p.cache.Filing) {a : Act}
    (ha : p.Permits payloads used (.act a)) : p.cache.Minds payloads (p.act a).cache := by
  cases a with
  | edit e => exact Pipeline.tends_edit e
  | request m r t => exact Pipeline.tends_request hu hc r t ha
  | lookup text => exact ObjectCache.tends_lookup text
  | holdSlot id => exact ObjectCache.tends_hold id
  | dropSlot id => exact ObjectCache.tends_drop id
  | releaseSlot id => exact ObjectCache.tends_release id
  | fill id e =>
    refine ObjectCache.tends_set_elsewhere ?_ e
    rintro k ⟨bs, hbs, rfl⟩
    exact ha bs hbs
  | clear => exact ObjectCache.tends_clear

lemma minds_perform (hb : h.registry.Builtin) (hk : Set.InjOn profileKey payloads)
    (hu : used.Avoid (profileKey '' payloads)) (hc : p.cache.Shelved payloads) {d : Job}
    (hd : p.Permits payloads used d) : p.cache.Minds payloads (h.perform p d).cache := by
  cases d with
  | load pattern bs flags => exact minds_load hb hc hk hd
  | render m c limit t => exact Pipeline.tends_render hu hc.filing c limit t hd
  | act a => exact minds_act hu hc.filing hd

lemma minds_after (hb : h.registry.Builtin) (hk : Set.InjOn profileKey payloads)
    (hu : used.Avoid (profileKey '' payloads)) (hc : p.cache.Shelved payloads) {ds : List Job}
    (hd : h.Permits payloads used p ds) : p.cache.Minds payloads (h.after p ds).cache := by
  induction ds generalizing p with
  | nil => exact .refl _
  | cons d ds ih =>
    have hm := minds_perform hb hk hu hc hd.1
    exact hm.trans (ih (hc.of_minds hm) hd.2)

lemma load_again (hb : h.registry.Builtin) (hk : Set.InjOn profileKey payloads)
    (hu : used.Avoid (profileKey '' payloads)) (hc : p.cache.Shelved payloads) {bs : Bytes}
    (hbs : bs ∈ payloads) {pattern pattern' : String} {flags flags' : UInt32} {e e' : Entity}
    {c c' : ObjectCache} (hl : h.load pattern bs flags p.cache = .ok e c) {later : List Job}
    (hd : h.Permits payloads used (h.perform p (.load pattern bs flags)) later)
    (hstill : ∀ slot, c.filed? (profileKey bs) = some slot →
      (h.after (h.perform p (.load pattern bs flags)) later).cache.filed? (profileKey bs) =
        some slot)
    (hl' : h.load pattern' bs flags'
      (h.after (h.perform p (.load pattern bs flags)) later).cache = .ok e' c') : e' = e := by
  obtain ⟨-, slot, hfiled, hkey, hentry⟩ := load_ok hb hc hbs hl
  have hperform : (h.perform p (.load pattern bs flags)).cache = c := by
    rw [cache_perform_load, hl, Work.left]
  have hc' : (h.perform p (.load pattern bs flags)).cache.Shelved payloads :=
    hc.of_minds (minds_load hb hc hk hbs)
  rw [← hperform] at hkey hentry
  have hm := minds_after hb hk hu hc' hd
  -- The slot has kept what the first load left in it, so the second one finds that.
  have hstays := hm.stays _ ⟨bs, hbs, rfl⟩ slot e hkey (hstill slot hfiled) hentry
  exact load_of_filed hb (hc'.of_minds hm) (hstill slot hfiled) hstays hl'

structure Loads (h : Host) (payloads : Set Bytes) (used : Uses) (p : Pipeline) (bs : Bytes) :
    Prop where
  fails : ∀ pattern flags, (∃ e c, h.load pattern bs flags p.cache = .error e c) ↔
    (∀ q ∈ h.registry.providers, q.category = .dataCodec →
      ¬ (Path.parse pattern).selects q.registration) ∨ ∃ f, Profile.parse bs = .error f
  profile : ∀ pattern flags e c, h.load pattern bs flags p.cache = .ok e c → e.IsProfileOf bs
  again : ∀ pattern flags e c, h.load pattern bs flags p.cache = .ok e c →
    ∀ later, h.Permits payloads used (h.perform p (.load pattern bs flags)) later →
      (∀ slot, c.filed? (profileKey bs) = some slot →
        (h.after (h.perform p (.load pattern bs flags)) later).cache.filed? (profileKey bs) =
          some slot) →
      ∀ pattern' flags' e' c', h.load pattern' bs flags'
        (h.after (h.perform p (.load pattern bs flags)) later).cache = .ok e' c' → e' = e

/-- Whatever was loaded, rendered and looked up before, a load fails exactly for want of a codec or
of a profile, and what it gives stays the same. -/
theorem loads_after (h : Host) (hb : h.registry.Builtin) (payloads : Set Bytes) (used : Uses)
    (hp : Set.InjOn Digest.sha256 payloads)
    (hk : Set.InjOn (fun text => Digest.sha256 (Bytes.ofText text))
      {text ∈ profileText '' payloads ∪ used.texts | CacheKey.inlineLimit ≤ text.utf8ByteSize})
    (jobs : List Job) (hd : h.Permits payloads used {} jobs) (bs : Bytes) (hbs : bs ∈ payloads) :
    h.Loads payloads used (h.after {} jobs) bs := by
  have hk := CacheKey.ofText_injOn hk
  have hinj : Set.InjOn profileKey payloads := injOn_profileKey hp hk
  have hu : used.Avoid (profileKey '' payloads) := avoid_profileKey hk
  have hc : (h.after {} jobs).cache.Shelved payloads :=
    ObjectCache.shelved_empty.of_minds (minds_after hb hinj hu ObjectCache.shelved_empty hd)
  refine ⟨fun pattern flags => load_eq_error_iff hb hc hbs, fun pattern flags e c hl => ?_,
    fun pattern flags e c hl later hlater hstill pattern' flags' e' c' hl' => ?_⟩
  · exact (load_ok hb hc hbs hl).1
  · exact load_again hb hinj hu hc hbs hl hlater hstill hl'

def standard : Host where
  registry := ⟨Registry.builtinServices.mapIdx fun i e =>
    ⟨i, .parse e.1, Registry.builtinVersion, e.2⟩⟩

lemma builtin_standard : standard.registry.Builtin :=
  Registry.Builtin.registerBuiltin Registry.builtin_empty rfl

def lost : List Job := [.load "" blank 1, .act .clear]

theorem loads_after_blank :
    ∃ e c, standard.load "" blank 0 (standard.after {} lost).cache = .ok e c ∧ e.IsProfileOf blank ∧
      ∀ pattern flags e' c', standard.load pattern blank flags (c.lookup "icc.transform").2 =
        .ok e' c' → e' = e := by
  have hshort : (gainText ⟨"icc.transform"⟩ .empty).utf8ByteSize < CacheKey.inlineLimit := by
    decide
  have hk : Set.InjOn (fun text => Digest.sha256 (Bytes.ofText text))
      {text ∈ profileText '' {blank} ∪ Uses.texts {(⟨"icc.transform"⟩, .empty)} |
        CacheKey.inlineLimit ≤ text.utf8ByteSize} := by
    have hblank : ∀ text ∈ {text ∈ profileText '' {blank} ∪
        Uses.texts {(⟨"icc.transform"⟩, .empty)} | CacheKey.inlineLimit ≤ text.utf8ByteSize},
        text = profileText blank := by
      rintro text ⟨⟨_, rfl, rfl⟩ | ⟨r, s, hs, rfl⟩, hlimit⟩
      · rfl
      · cases hs
        exact absurd hshort (not_lt.2 hlimit)
    exact fun x hx y hy _ => (hblank x hx).trans (hblank y hy).symm
  have h := loads_after standard builtin_standard {blank} {(⟨"icc.transform"⟩, .empty)}
    (Set.injOn_singleton _ _) hk lost ⟨rfl, trivial, trivial⟩ blank rfl
  cases hl : standard.load "" blank 0 (standard.after {} lost).cache with
  | error e c =>
    rcases (h.fails "" 0).1 ⟨e, c, hl⟩ with hq | ⟨f, hf⟩
    · have hcodec : ⟨4, .parse "org/tincture/colour/icc.blob", Registry.builtinVersion, .profiles⟩ ∈
          standard.registry.providers := by simp [standard, Registry.builtinServices]
      exact absurd rfl (hq _ hcodec rfl)
    · have hok : (Profile.parse blank).isOk = true := by decide +kernel
      rw [hf] at hok
      cases hok
  | ok e c =>
    have hlater (p : Pipeline) : (standard.after p [.act (.lookup "icc.transform")]).cache =
        (p.cache.lookup "icc.transform").2 := rfl
    have hsame := h.again "" 0 e c hl [.act (.lookup "icc.transform")] ⟨trivial, trivial⟩
    rw [hlater, cache_perform_load, hl, Work.left] at hsame
    exact ⟨e, c, rfl, h.profile "" 0 e c hl, hsame fun slot hslot =>
      ObjectCache.filed?_lookup_of_filed hslot "icc.transform"⟩

end Host

end ColourPipeline
