import ResponseCache.Proofs.Http.Header
import ResponseCache.Proofs.Key.Sections
import ResponseCache.Proofs.Middleware.OwnKey

/-!
# What keys tell about requests

The middleware reads a request as text before it derives a key. What it can read it reads without loss: the values
that a key is built from are the bytes that the request has under that name (`facts_params`, `facts_query`,
`facts_headers`), so requests that differ in something selected and readable have different keys (`key_separates`).
What it cannot read it leaves out or replaces, and then different requests may have the same key
(`key_conflates_unreadable`). A key that is derived by the application is derived from those facts only that the
selections name (`derived_key_sees`, `derived_key_blind`).
-/

namespace ResponseCache

open Http

namespace Text

/-- A text as bytes. -/
abbrev bytesOf (text : String) : List UInt8 := (encode text).toList

/-- The bytes are a text. -/
def Legible (bytes : List UInt8) : Prop := ∃ text, bytesOf text = bytes

/-- The bytes that a name or a value of a form stands for. -/
def formDecode (bytes : List UInt8) : List UInt8 := percentBytes [] (bytes.map fun b => if b = 0x2B then 0x20 else b)

/-- The pairs of a query as bytes, in order. -/
def formBytes (query : String) : List (List UInt8 × List UInt8) :=
  ((splitBytes 0x26 [] [] (encode query).toList).filter fun piece => !piece.isEmpty).map fun piece =>
    (formDecode (piece.takeWhile (· != 0x3D)), formDecode ((piece.dropWhile (· != 0x3D)).drop 1))

theorem formPairs_eq (query : String) :
    formPairs query = (formBytes query).map fun p => (decodeLossy p.1, decodeLossy p.2) := by
  rw [formPairs, formBytes, List.map_map]
  rfl

theorem percentDecode?_eq_some_iff {s text : String} :
    percentDecode? s = some text ↔ bytesOf text = percentDecode s := by
  rw [percentDecode?, decode?_eq_some_iff, ← Bytes.toList_inj, Bytes.toList_eq_data ⟨(percentDecode s).toArray⟩]

end Text

namespace Visit

variable (v : Visit)

/-! ## What a request has under a name -/

/-- The values of a path parameter, percent-decoded. -/
def paramBytes (name : String) : List (List UInt8) :=
  (v.params.filter fun p => p.1 == name).map fun p => Text.percentDecode p.2

/-- The values of a query name, percent-decoded. -/
def queryBytes (name : String) : List (List UInt8) :=
  ((Text.formBytes (v.request.target.query.getD "")).filter fun p => p.1 == Text.bytesOf name).map (·.2)

/-- The values of a header field, whatever the case of its name. -/
def headerBytes (name : String) : List (List UInt8) :=
  (v.request.headers.fields.filter fun f => f.1.toLower == name.toLower).map (·.2.toList)

/-- All path parameters are texts. -/
def ParamsLegible : Prop := ∀ p ∈ v.params, Text.Legible (Text.percentDecode p.2)

/-- What may stand for a query name is a text, and so are its values. -/
def QueryLegible (name : String) : Prop :=
  ∀ p ∈ Text.formBytes (v.request.target.query.getD ""), Text.decodeLossy p.1 = name →
    Text.Legible p.1 ∧ Text.Legible p.2

/-- The values of a header field are visible. -/
def HeaderLegible (name : String) : Prop :=
  ∀ f ∈ v.request.headers.fields, f.1.toLower = name.toLower → isVisible f.2 = true

end Visit

/-- Two requests differ in something that their route selects and that can be read. Path parameters can be read of one
of them alone. -/
inductive Visit.Differs (v v' : Visit) : Prop
  | param (name : String) : v.rule.key.params.includes id name = true → v.ParamsLegible → v'.ParamsLegible →
      ¬ (v.paramBytes name).Perm (v'.paramBytes name) → Differs v v'
  | paramLeft (name : String) : v.rule.key.params.includes id name = true → v.ParamsLegible → v.paramBytes name ≠ [] →
      ¬ v'.ParamsLegible → Differs v v'
  | paramRight (name : String) : v.rule.key.params.includes id name = true → ¬ v.ParamsLegible → v'.ParamsLegible →
      v'.paramBytes name ≠ [] → Differs v v'
  | query (name : String) : v.rule.key.query.includes id name = true → v.QueryLegible name → v'.QueryLegible name →
      ¬ (v.queryBytes name).Perm (v'.queryBytes name) → Differs v v'
  | header (name : String) : v.rule.key.headers.includes String.toLower name = true → v.HeaderLegible name →
      v'.HeaderLegible name → ¬ (v.headerBytes name).Perm (v'.headerBytes name) → Differs v v'

namespace Middleware

open KeyRule (valuesOf)
open Text (bytesOf)

/-! ## What the middleware reads -/

/-- The facts that a key is built from, but for the body. -/
theorem capture_facts {rule : KeyRule} {template : String} {params : List (String × String)} {r r' : Request}
    {k : KeyRequest} (captured : capture rule template params r = some (k, r')) :
    ∃ body raw, k = { facts rule template params r with body := body, rawBody := raw } := by
  unfold capture at captured
  dsimp only at captured
  split at captured
  · cases captured
    exact ⟨_, _, rfl⟩
  · split at captured
    · cases captured
      unfold withBody
      split <;> exact ⟨_, _, rfl⟩
    · cases captured

/-- **Path parameters are read** as the texts that their bytes are. -/
theorem decodeParams_eq_some_iff {params decoded : List (String × String)} : decodeParams params = some decoded ↔
    decoded.map (fun p => (p.1, bytesOf p.2)) = params.map fun p => (p.1, Text.percentDecode p.2) := by
  induction params generalizing decoded with
  | nil =>
    show some [] = some decoded ↔ decoded.map _ = []
    rw [Option.some.injEq, List.map_eq_nil_iff]
    exact eq_comm
  | cons p params ih =>
    obtain ⟨name, value⟩ := p
    rw [decodeParams] at ih ⊢
    simp only [List.mapM_cons, Option.bind_eq_bind, Option.bind_eq_some_iff, Option.map_eq_some_iff, Option.pure_def,
      Option.some.injEq]
    constructor
    · rintro ⟨_, ⟨text, here, rfl⟩, rest, more, rfl⟩
      rw [List.map_cons, List.map_cons, ih.1 more, Text.percentDecode?_eq_some_iff.1 here]
    · intro eq
      cases decoded with
      | nil => cases eq
      | cons d decoded =>
        obtain ⟨name', text⟩ := d
        rw [List.map_cons, List.map_cons] at eq
        injection eq with head tail
        injection head with same here
        subst same
        exact ⟨_, ⟨text, Text.percentDecode?_eq_some_iff.2 here, rfl⟩, decoded, ih.2 tail, rfl⟩

/-- They are read all or none. -/
theorem decodeParams_isSome_iff {params : List (String × String)} :
    (∃ decoded, decodeParams params = some decoded) ↔ ∀ p ∈ params, Text.Legible (Text.percentDecode p.2) := by
  simp only [decodeParams_eq_some_iff]
  induction params with
  | nil => exact ⟨fun _ => nofun, fun _ => ⟨[], rfl⟩⟩
  | cons p params ih =>
    rw [List.forall_mem_cons, ← ih]
    constructor
    · rintro ⟨_ | ⟨d, decoded⟩, eq⟩
      · cases eq
      · rw [List.map_cons, List.map_cons] at eq
        injection eq with head tail
        exact ⟨⟨d.2, congrArg Prod.snd head⟩, decoded, tail⟩
    · rintro ⟨⟨text, here⟩, decoded, more⟩
      exact ⟨(p.1, text) :: decoded, by rw [List.map_cons, List.map_cons, more, here]⟩

theorem valuesOf_bytes (fold : String → String) (name : String) (pairs : List (String × String)) :
    (valuesOf fold name pairs).map bytesOf =
      ((pairs.map fun p => (p.1, bytesOf p.2)).filter fun p => fold p.1 == fold name).map (·.2) := by
  rw [valuesOf, List.filter_map, List.map_map, List.map_map]
  rfl

section Facts

variable {v : Visit} {name : String}

/-- **Path parameters** that are texts are read without loss. -/
theorem facts_params (selected : v.rule.key.params.includes id name = true) (legible : v.ParamsLegible) :
    (valuesOf id name (facts v.rule.key v.template v.params v.request).params).map bytesOf = v.paramBytes name := by
  obtain ⟨decoded, read⟩ := decodeParams_isSome_iff.2 legible
  have some : v.rule.key.params ≠ .exclude := fun none => by simp [none, Selection.includes] at selected
  have params : (facts v.rule.key v.template v.params v.request).params = decoded := by
    rw [facts, if_neg some, read, Option.getD_some]
  rw [params, valuesOf_bytes, decodeParams_eq_some_iff.1 read, List.filter_map, List.map_map]
  rfl

/-- Path parameters one of which is no text are not read at all. -/
theorem facts_params_of_illegible (illegible : ¬ v.ParamsLegible) :
    (facts v.rule.key v.template v.params v.request).params = [] := by
  rw [facts]
  split
  · rfl
  · cases read : decodeParams v.params with
    | none => rfl
    | some decoded => exact absurd (decodeParams_isSome_iff.1 ⟨decoded, read⟩) illegible

/-- **Queries** are read without loss where they are texts. -/
theorem facts_query (selected : v.rule.key.query.includes id name = true) (legible : v.QueryLegible name) :
    (valuesOf id name (facts v.rule.key v.template v.params v.request).query).map bytesOf = v.queryBytes name := by
  have some : v.rule.key.query ≠ .exclude := fun none => by simp [none, Selection.includes] at selected
  have query : (facts v.rule.key v.template v.params v.request).query =
      Text.formPairs (v.request.target.query.getD "") := if_neg some
  rw [query, Text.formPairs_eq, valuesOf, Visit.queryBytes]
  unfold Visit.QueryLegible at legible
  generalize Text.formBytes (v.request.target.query.getD "") = pairs at legible ⊢
  induction pairs with
  | nil => rfl
  | cons p pairs ih =>
    have ih := ih fun p mem => legible p (List.mem_cons_of_mem _ mem)
    obtain ⟨field, value⟩ := p
    by_cases same : Text.decodeLossy field = name
    · obtain ⟨⟨text, rfl⟩, ⟨text', rfl⟩⟩ := legible _ List.mem_cons_self same
      rw [Text.decodeLossy_encode] at same
      subst same
      simpa [Text.decodeLossy_encode] using ih
    · have differ : field ≠ bytesOf name := fun eq => same (eq ▸ Text.decodeLossy_encode name)
      simpa [same, differ] using ih

/-- **Header fields** are read without loss where they are visible. -/
theorem facts_headers (selected : v.rule.key.headers.includes String.toLower name = true)
    (legible : v.HeaderLegible name) :
    (valuesOf String.toLower name (facts v.rule.key v.template v.params v.request).headers).map bytesOf =
      v.headerBytes name := by
  have some : v.rule.key.headers ≠ .exclude := fun none => by simp [none, Selection.includes] at selected
  have headers : (facts v.rule.key v.template v.params v.request).headers = visibleHeaders v.request.headers :=
    if_neg some
  rw [headers, visibleHeaders, valuesOf, Visit.headerBytes]
  unfold Visit.HeaderLegible at legible
  generalize v.request.headers.fields = fields at legible ⊢
  induction fields with
  | nil => rfl
  | cons f fields ih =>
    have ih := ih fun f mem => legible f (List.mem_cons_of_mem _ mem)
    obtain ⟨field, value⟩ := f
    by_cases same : field.toLower = name.toLower
    · obtain ⟨text, read⟩ := visibleText?_of_visible (legible _ List.mem_cons_self same)
      have bytes : bytesOf text = value.toList := congrArg ByteArray.toList (encode_of_visibleText? read)
      simpa [read, same, bytes] using ih
    · cases read : visibleText? value with
      | none => simpa [read, same] using ih
      | some text => simpa [read, same] using ih

end Facts

/-- **Requests of one route that differ** in something selected and readable have different keys. -/
theorem key_ne_of_differs {settings : Settings} {v v' : Visit} (rule : v.rule = v'.rule)
    (template : v.template = v'.template) (method : v.request.method = v'.request.method)
    (generated : v.rule.key.override = none) (differs : v.Differs v') {key : String}
    (own : v.key? settings = some key) : v'.key? settings ≠ some key := by
  intro own'
  rw [Visit.key?, Option.bind_eq_some_iff] at own own'
  obtain ⟨⟨k, r⟩, captured, own⟩ := own
  obtain ⟨⟨k', r'⟩, captured', own'⟩ := own'
  dsimp only at own own'
  split at own
  case isFalse => cases own
  split at own'
  case isFalse => cases own'
  injection own with own
  injection own' with own'
  obtain ⟨body, raw, rfl⟩ := capture_facts captured
  obtain ⟨body', raw', rfl⟩ := capture_facts captured'
  rw [← own', ← rule] at own
  obtain ⟨params, query, headers⟩ := KeyRule.build_perm generated method template own
  cases differs with
  | param name selected legible legible' differ =>
    refine differ ?_
    rw [← facts_params selected legible, ← facts_params (rule ▸ selected) legible', ← rule]
    exact (params name selected).map bytesOf
  | paramLeft name selected legible some illegible =>
    refine some ?_
    have none := params name selected
    rw [rule, facts_params_of_illegible illegible, ← rule] at none
    rw [← facts_params selected legible, none.eq_nil, List.map_nil]
  | paramRight name selected illegible legible some =>
    refine some ?_
    have none := params name selected
    rw [facts_params_of_illegible illegible, rule] at none
    rw [← facts_params (rule ▸ selected) legible, none.symm.eq_nil, List.map_nil]
  | query name selected legible legible' differ =>
    refine differ ?_
    rw [← facts_query selected legible, ← facts_query (rule ▸ selected) legible', ← rule]
    exact (query name selected).map bytesOf
  | header name selected legible legible' differ =>
    refine differ ?_
    rw [← facts_headers selected legible, ← facts_headers (rule ▸ selected) legible', ← rule]
    exact (headers name selected).map bytesOf

end Middleware

/-- **Generated keys separate requests.** Let two requests of one route, whose key is not overridden, differ in the
values of something that the route selects, and let these values be readable. Then they have different keys, and in no
pool does one of them look up what the other one has written. -/
theorem key_separates {S : Surroundings} {v v' : Visit} (rule : v.rule = v'.rule) (template : v.template = v'.template)
    (method : v.request.method = v'.request.method) (generated : v.rule.key.override = none) (differs : v.Differs v') :
    (∀ key, v.key? S.settings = some key → v'.key? S.settings ≠ some key) ∧
      ∀ (store : Store) (p : Pool), Reach S store p → ∀ t ∈ p.tasks, ∀ u ∈ p.tasks, t.visit = v → u.visit = v' →
        ¬ t.Reads u ∧ ¬ u.Reads t := by
  have ne : ∀ key, v.key? S.settings = some key → v'.key? S.settings ≠ some key := fun key =>
    Middleware.key_ne_of_differs rule template method generated differs
  refine ⟨ne, ?_⟩
  rintro store p reach t here u there rfl rfl
  exact ⟨reach.not_reads here there ne, reach.not_reads there here fun key own' own => ne key own own'⟩

/-- Two items of a route have two keys. -/
theorem key_separates_items : ∃ (S : Surroundings) (store : Store) (p : Pool) (t u : Task), Reach S store p ∧
    t ∈ p.tasks ∧ u ∈ p.tasks ∧ t.visit.key? S.settings = some "cache:GET:/items/:id:params=\x7b\"id\":\"1\"\x7d" ∧
    u.visit.key? S.settings = some "cache:GET:/items/:id:params=\x7b\"id\":\"2\"\x7d" ∧ ¬ t.Reads u := by
  let item (id : String) : Visit :=
    ⟨{}, "/items/:id", [("id", id)], some 0, ⟨"GET", { path := "/items/" ++ id }, .empty, .empty⟩⟩
  let S : Surroundings :=
    { settings := {}
      comes := fun _ => True
      answers := fun _ _ _ => True
      others := fun _ => True
      mayFail := fun _ => True
      mayDrop := fun _ => True }
  let store : Store := ⟨⟨∅, ∅, 0, 1, {}, by decide⟩, ∅, ∅, 0⟩
  have reach : Reach S store _ := Relation.ReflTransGen.refl.tail (.arrive _ (v := item "1") trivial)
    |>.tail (.arrive _ (v := item "2") trivial)
  have legible : ∀ id, Text.Legible (Text.percentDecode id) → (item id).ParamsLegible := by
    rintro id legible p mem
    cases List.mem_singleton.1 mem
    exact legible
  have differs : (item "1").Differs (item "2") :=
    .param "id" rfl (legible _ ⟨"1", by decide +kernel⟩) (legible _ ⟨"2", by decide +kernel⟩) (by decide +kernel)
  obtain ⟨-, apart⟩ := key_separates (S := S) (show (item "1").rule = (item "2").rule from rfl) rfl rfl rfl differs
  refine ⟨S, store, _, _, _, reach, List.mem_cons_self, List.mem_cons_of_mem _ List.mem_cons_self, ?_, ?_, ?_⟩
  · decide +kernel
  · decide +kernel
  · exact (apart store _ reach _ List.mem_cons_self _ (List.mem_cons_of_mem _ List.mem_cons_self) rfl rfl).1

/-- Two items whose names are no texts have one key: of path parameters that cannot be read none takes part. -/
theorem key_conflates_unreadable : ∃ (settings : Settings) (v v' : Visit) (key : String), v.rule = v'.rule ∧
    v.template = v'.template ∧ v.request.method = v'.request.method ∧ v.rule.key.override = none ∧
    v.rule.key.params.includes id "id" = true ∧ ¬ (v.paramBytes "id").Perm (v'.paramBytes "id") ∧
    v.key? settings = some key ∧ v'.key? settings = some key := by
  let item (id : String) : Visit :=
    ⟨{}, "/items/:id", [("id", id)], some 0, ⟨"GET", { path := "/items/" ++ id }, .empty, .empty⟩⟩
  exact ⟨{}, item "%FF", item "%FE", "cache:GET:/items/:id", rfl, rfl, rfl, rfl, rfl, by decide +kernel,
    by decide +kernel, by decide +kernel⟩

/-! ## Derived keys -/

/-- All facts of a request, as far as a key may depend on them without its body: the texts of all path parameters, all
pairs of the query, and the texts of all header fields. -/
structure Visit.Tells (v : Visit) (k : KeyRequest) : Prop where
  method : k.method = v.request.method
  route : k.route = v.template
  params : k.params.map (fun p => (p.1, Text.bytesOf p.2)) = v.params.map fun p => (p.1, Text.percentDecode p.2)
  query : k.query = Text.formPairs (v.request.target.query.getD "")
  headers : k.headers.map (fun h => (h.1, Text.encode h.2)) = v.request.headers.fields
  visible : ∀ f ∈ v.request.headers.fields, isVisible f.2 = true
  body : k.body = none
  rawBody : k.rawBody = none

/-- The facts of a request that the middleware looks at for a derived key. -/
def Visit.seen (v : Visit) : KeyRequest := Middleware.facts v.rule.key v.template v.params v.request

/-- The key of a request is derived from its facts, and the route leaves out no field set that it depends on. -/
structure Visit.Derives (v : Visit) (derive : KeyRequest → String) (k : KeyRequest) : Prop where
  override : v.rule.key.override = some (.derived derive)
  params : v.rule.key.params = .exclude → ∀ r params, derive { r with params := params } = derive r
  query : v.rule.key.query = .exclude → ∀ r query, derive { r with query := query } = derive r
  headers : v.rule.key.headers = .exclude → ∀ r headers, derive { r with headers := headers } = derive r
  tells : v.Tells k

namespace Middleware

/-- Visible header fields are all read. -/
theorem visibleHeaders_eq {headers : List (String × String)} {h : Headers}
    (same : headers.map (fun f => (f.1, Text.encode f.2)) = h.fields) (visible : ∀ f ∈ h.fields, isVisible f.2 = true) :
    visibleHeaders h = headers := by
  rw [visibleHeaders, ← same, List.filterMap_map]
  rw [← same] at visible
  refine (List.filterMap_congr fun f mem => ?_).trans List.filterMap_some
  show (visibleText? (Text.encode f.2)).map (f.1, ·) = some f
  rw [visibleText?_encode (visible _ (List.mem_map_of_mem mem))]
  rfl

/-- **What a key is derived from**, whatever the selections. -/
theorem key?_of_derived {settings : Settings} {v : Visit} {derive : KeyRequest → String}
    (override : v.rule.key.override = some (.derived derive)) : v.key? settings = some (derive v.seen) := by
  have captured : capture v.rule.key v.template v.params v.request = some (v.seen, v.request) := by
    rw [capture, KeyRule.needsBody, override]
    rfl
  have can : v.rule.key.canKey v.seen = true := by simp [KeyRule.canKey, override]
  have built : v.rule.key.build settings.keyStart v.seen = derive v.seen := by
    rw [KeyRule.build, override]
    rfl
  rw [Visit.key?, captured, ← built]
  exact if_pos can

/-- If no field set that it depends on is left out, a key is derived as from all facts of the request. -/
theorem derive_seen {v : Visit} {derive : KeyRequest → String} {k : KeyRequest} (derives : v.Derives derive k) :
    derive v.seen = derive k := by
  obtain ⟨-, params, query, headers, tells⟩ := derives
  -- A field set is either left out, and makes no difference, or it is read as it is.
  have params (r : KeyRequest) : derive { r with params := v.seen.params } = derive { r with params := k.params } := by
    by_cases out : v.rule.key.params = .exclude
    · exact (params out _ _).trans (params out _ _).symm
    · have read : v.seen.params = k.params := by
        rw [Visit.seen, facts, if_neg out, decodeParams_eq_some_iff.2 tells.params, Option.getD_some]
      rw [read]
  have query (r : KeyRequest) : derive { r with query := v.seen.query } = derive { r with query := k.query } := by
    by_cases out : v.rule.key.query = .exclude
    · exact (query out _ _).trans (query out _ _).symm
    · have read : v.seen.query = k.query := (if_neg out).trans tells.query.symm
      rw [read]
  have headers (r : KeyRequest) :
      derive { r with headers := v.seen.headers } = derive { r with headers := k.headers } := by
    by_cases out : v.rule.key.headers = .exclude
    · exact (headers out _ _).trans (headers out _ _).symm
    · have read : v.seen.headers = k.headers := (if_neg out).trans (visibleHeaders_eq tells.headers tells.visible)
      rw [read]
  calc derive v.seen
      = derive { k with params := v.seen.params, query := v.seen.query, headers := v.seen.headers } := by
        rw [Visit.seen, facts, tells.method, tells.route, tells.body, tells.rawBody]
    _ = derive { k with query := v.seen.query, headers := v.seen.headers } :=
        params { k with query := v.seen.query, headers := v.seen.headers }
    _ = derive { k with headers := v.seen.headers } := query { k with headers := v.seen.headers }
    _ = derive k := headers k

theorem key?_of_derives {settings : Settings} {v : Visit} {derive : KeyRequest → String} {k : KeyRequest}
    (derives : v.Derives derive k) : v.key? settings = some (derive k) := by
  rw [key?_of_derived derives.override, derive_seen derives]

end Middleware

/-- **A derived key sees the request.** Whatever a route selects, every operation for a request is about what is
derived from the facts that the selections leave. If the route leaves out no field set that the key depends on, that
is what is derived from all facts of the request, and it looks up nothing that a request with another key has written,
nor the other way round. -/
theorem derived_key_sees {S : Surroundings} {store : Store} {p : Pool} (reach : Reach S store p) {t : Task}
    (here : t ∈ p.tasks) :
    (∀ derive, t.visit.rule.key.override = some (.derived derive) →
      t.visit.key? S.settings = some (derive t.visit.seen) ∧
      ∀ e ∈ t.log, ∀ op, e.action = .operate op → op.key? = some (derive t.visit.seen)) ∧
    ∀ derive k, t.visit.Derives derive k → t.visit.key? S.settings = some (derive k) ∧
      (∀ e ∈ t.log, ∀ op, e.action = .operate op → op.key? = some (derive k)) ∧
      ∀ u ∈ p.tasks, ∀ derive' k', u.visit.Derives derive' k' → derive' k' ≠ derive k →
        ¬ t.Reads u ∧ ¬ u.Reads t := by
  have about {key} (own : t.visit.key? S.settings = some key) :
      ∀ e ∈ t.log, ∀ op, e.action = .operate op → op.key? = some key := by
    intro e mem op operates
    obtain ⟨key, is, about⟩ := reach.own_key here mem operates
    rw [about, ← is, own]
  constructor
  · intro derive override
    have own : t.visit.key? S.settings = some (derive t.visit.seen) := Middleware.key?_of_derived override
    exact ⟨own, about own⟩
  · intro derive k derives
    have own : t.visit.key? S.settings = some (derive k) := Middleware.key?_of_derives derives
    refine ⟨own, about own, fun u there derive' k' derives' ne => ?_⟩
    have own' : u.visit.key? S.settings = some (derive' k') := Middleware.key?_of_derives derives'
    refine ⟨reach.not_reads here there ?_, reach.not_reads there here ?_⟩
    · rintro key is is'
      exact ne (Option.some.inj (own'.symm.trans (is'.trans (is.symm.trans own))))
    · rintro key is' is
      exact ne (Option.some.inj (own'.symm.trans (is'.trans (is.symm.trans own))))

/-- A profile is kept under the key of its tenant; the route leaves out the query, which the key does not depend on. -/
theorem derived_key_sees_tenant : ∃ (S : Surroundings) (store : Store) (p : Pool) (t u : Task), Reach S store p ∧
    t ∈ p.tasks ∧ u ∈ p.tasks ∧ t.visit.key? S.settings = some "tenant:acme" ∧
    u.visit.key? S.settings = some "tenant:globex" ∧ ¬ t.Reads u := by
  let derive (r : KeyRequest) : String := "tenant:" ++ (r.header? "x-tenant").getD "none"
  let profile (tenant : String) : Visit :=
    ⟨{ key := { headers := .only ["x-tenant"], override := some (.derived derive) } }, "/profile", [],
      some 0, ⟨"GET", { path := "/profile" }, ⟨[("x-tenant", Text.encode tenant)]⟩, .empty⟩⟩
  let S : Surroundings :=
    { settings := {}
      comes := fun _ => True
      answers := fun _ _ _ => True
      others := fun _ => True
      mayFail := fun _ => True
      mayDrop := fun _ => True }
  let store : Store := ⟨⟨∅, ∅, 0, 1, {}, by decide⟩, ∅, ∅, 0⟩
  have reach : Reach S store _ := Relation.ReflTransGen.refl.tail (.arrive _ (v := profile "acme") trivial)
    |>.tail (.arrive _ (v := profile "globex") trivial)
  have empty : [] = Text.formPairs "" := by decide +kernel
  have derives : ∀ tenant, isVisible (Text.encode tenant) = true →
      (profile tenant).Derives derive { method := "GET", route := "/profile", headers := [("x-tenant", tenant)] } := by
    intro tenant visible
    refine ⟨rfl, nofun, fun _ _ _ => rfl, nofun, rfl, rfl, rfl, empty, rfl, fun f mem => ?_, rfl, rfl⟩
    cases List.mem_singleton.1 mem
    exact visible
  obtain ⟨own, -, apart⟩ := (derived_key_sees reach List.mem_cons_self).2 derive _ (derives "acme" (by decide +kernel))
  obtain ⟨own', -, -⟩ := (derived_key_sees reach (List.mem_cons_of_mem _ List.mem_cons_self)).2 derive _
    (derives "globex" (by decide +kernel))
  refine ⟨S, store, _, _, _, reach, List.mem_cons_self, List.mem_cons_of_mem _ List.mem_cons_self,
    own.trans (by decide +kernel), own'.trans (by decide +kernel), ?_⟩
  exact (apart _ (List.mem_cons_of_mem _ List.mem_cons_self) derive _ (derives "globex" (by decide +kernel))
    (by decide +kernel)).1

/-- A route that leaves the header fields out, as routes do by default, keeps the profiles of all tenants under one
key: the key is derived without them. -/
theorem derived_key_blind : ∃ (settings : Settings) (derive : KeyRequest → String) (v v' : Visit) (k k' : KeyRequest),
    v.rule = { key := { override := some (.derived derive) } } ∧ v'.rule = v.rule ∧ v.Tells k ∧ v'.Tells k' ∧
    derive k = "tenant:acme" ∧ derive k' = "tenant:globex" ∧
    v.key? settings = some "tenant:none" ∧ v'.key? settings = some "tenant:none" := by
  let derive (r : KeyRequest) : String := "tenant:" ++ (r.header? "x-tenant").getD "none"
  let profile (tenant : String) : Visit :=
    ⟨{ key := { override := some (.derived derive) } }, "/profile", [], some 0,
      ⟨"GET", { path := "/profile" }, ⟨[("x-tenant", Text.encode tenant)]⟩, .empty⟩⟩
  have empty : [] = Text.formPairs "" := by decide +kernel
  have tells : ∀ tenant, isVisible (Text.encode tenant) = true →
      (profile tenant).Tells { method := "GET", route := "/profile", headers := [("x-tenant", tenant)] } := by
    intro tenant visible
    refine ⟨rfl, rfl, rfl, empty, rfl, fun f mem => ?_, rfl, rfl⟩
    cases List.mem_singleton.1 mem
    exact visible
  exact ⟨{}, derive, profile "acme", profile "globex", _, _, rfl, rfl, tells _ (by decide +kernel),
    tells _ (by decide +kernel), by decide +kernel, by decide +kernel, by decide +kernel, by decide +kernel⟩

end ResponseCache
