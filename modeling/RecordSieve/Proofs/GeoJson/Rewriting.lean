import RecordSieve.GeoJson.Feature
import RecordSieve.Proofs.Json.Rereading
/-!
# RecordSieve.Proofs.GeoJson.Rewriting

Features and geometries as JSON values, and back.

What is read from a value whose objects are in order has foreign members in order and
under none of the keys that the format defines (`Feature.IsProper`). A proper feature
is what its record describes (`Feature.ofJson?_toRecord`), and the text of the feature
is read as this record, although a file has the members in another order
(`Feature.reread_fileJson`).
-/

namespace RecordSieve.GeoJson

open Json (Members IsOrdered reread rereadMembers)

/-! ### Lists of numbers, positions and coordinates -/

theorem listOf?_map {α : Type} {item? : Json → Option α} {toJson : α → Json}
    (h : ∀ x, item? (toJson x) = some x) (xs : List α) :
    listOf? item? (.array (xs.map toJson)) = some xs := by
  rw [listOf?, List.mapM_map]
  have hmap := @Json.mapM_eq_some_map_iff _ _ (fun x => item? (toJson x)) id xs
  rw [List.map_id] at hmap
  exact hmap.2 fun x _ => h x

theorem listOf?_numbersToJson (xs : List Binary64) :
    listOf? number? (numbersToJson xs) = some xs := by
  have hnumber : ∀ x, number? (.number (.double x)) = some x := fun _ => rfl
  exact listOf?_map hnumber xs

theorem Position.ofJson?_toJson (p : Position) : ofJson? p.toJson = some p := by
  rw [ofJson?, toJson, listOf?_numbersToJson]

/-- Coordinates are read by the name of their kind. -/
theorem Coordinates.ofJson?_toJson (c : Coordinates) : ofJson? c.kind c.toJson = some c := by
  have hline := listOf?_map Position.ofJson?_toJson
  have hlines := listOf?_map hline
  cases c with
  | point p => exact congrArg (Option.map point) (Position.ofJson?_toJson p)
  | multiPoint ps => exact congrArg (Option.map multiPoint) (hline ps)
  | lineString ps => exact congrArg (Option.map lineString) (hline ps)
  | multiLineString ls => exact congrArg (Option.map multiLineString) (hlines ls)
  | polygon ls => exact congrArg (Option.map polygon) (hlines ls)
  | multiPolygon ps => exact congrArg (Option.map multiPolygon) (listOf?_map hlines ps)

theorem Coordinates.kind_ne_collectionKind (c : Coordinates) :
    c.kind ≠ Geometry.collectionKind := by
  cases c with
  | _ => simp [kind, Geometry.collectionKind]

/-- A bounding box is read from its member. -/
theorem bounds?_of_get? {ms : Members} {b : Option Bounds}
    (h : Members.get? "bbox" ms = Members.get? "bbox" (boundsPairs b)) : bounds? ms = some b := by
  cases b with
  | none => rw [bounds?, h]; rfl
  | some xs =>
    have hget : Members.get? "bbox" ms = some (numbersToJson xs) := h
    rw [bounds?, hget]
    exact congrArg (Option.map some) (listOf?_numbersToJson xs)

/-! ### Foreign members -/

/-- Members in order, under none of the given keys. -/
structure IsForeign (keys : List String) (ms : Members) : Prop where
  ordered : ms.Ordered
  absent : ∀ key ∈ keys, Members.get? key ms = none

theorem ordered_foreign {ms : Members} (h : ms.Ordered) (keys : List String) :
    Members.Ordered (foreign keys ms) := by
  induction keys generalizing ms with
  | nil => exact h
  | cons key keys ih => exact ih (h.erase key)

theorem get?_foreign (keys : List String) (key : String) (ms : Members) :
    Members.get? key (foreign keys ms) = if key ∈ keys then none else Members.get? key ms := by
  induction keys generalizing ms with
  | nil => rfl
  | cons k keys ih =>
    have hstep : foreign (k :: keys) ms = foreign keys (Members.erase k ms) := rfl
    rw [hstep, ih, Members.get?_erase]
    by_cases hk : key = k
    · simp [hk]
    · simp [hk]

/-- What is left beside the given keys is foreign to them. -/
theorem isForeign_foreign {ms : Members} (h : ms.Ordered) (keys : List String) :
    IsForeign keys (foreign keys ms) :=
  ⟨ordered_foreign h keys, fun key hkey => by rw [get?_foreign, if_pos hkey]⟩

/-! ### Objects of own and foreign members -/

section Own

variable {keys : List String} {own more : Members}

/-- Members that a format defines: each of its keys at most once. -/
structure IsOwn (keys : List String) (own : Members) : Prop where
  nodup : (own.map Prod.fst).Nodup
  known : ∀ m ∈ own, m.1 ∈ keys

theorem IsForeign.notMem (hmore : IsForeign keys more) {m : String × Json} (hm : m ∈ more) :
    m.1 ∉ keys := by
  intro hkey
  exact Members.get?_eq_none_iff.1 (hmore.absent _ hkey) m hm rfl

theorem nodup_keys (hown : IsOwn keys own) (hmore : IsForeign keys more) :
    ((own ++ more).map Prod.fst).Nodup := by
  rw [List.map_append, List.nodup_append]
  refine ⟨hown.nodup, hmore.ordered.nodup, ?_⟩
  rintro key hkey other hother rfl
  obtain ⟨m, hm, rfl⟩ := List.mem_map.1 hkey
  obtain ⟨n, hn, heq⟩ := List.mem_map.1 hother
  exact hmore.notMem hn (heq ▸ hown.known m hm)

/-- Own members are found whatever foreign ones stand beside them. -/
theorem get?_own (hown : IsOwn keys own) (hmore : IsForeign keys more) {key : String}
    (hkey : key ∈ keys) :
    Members.get? key (Members.ofPairs (own ++ more)) = Members.get? key own := by
  rw [Members.get?_ofPairs (nodup_keys hown hmore), Members.get?_append, hmore.absent key hkey,
    Option.or_none]

/-- The foreign members of an object are found beside its own. -/
theorem foreign_ofPairs (hown : IsOwn keys own) (hmore : IsForeign keys more) :
    foreign keys (Members.ofPairs (own ++ more)) = more := by
  refine Members.Ordered.ext (ordered_foreign (Members.ordered_ofPairs _) keys) hmore.ordered
    fun key => ?_
  rw [get?_foreign]
  by_cases hkey : key ∈ keys
  · rw [if_pos hkey, hmore.absent key hkey]
  · have hnone : Members.get? key own = none :=
      Members.get?_eq_none_iff.2 fun m hm heq => hkey (heq ▸ hown.known m hm)
    rw [if_neg hkey, Members.get?_ofPairs (nodup_keys hown hmore), Members.get?_append, hnone,
      Option.none_or]

end Own

/-! ### Geometries -/

namespace Geometry

/-- The keys of a geometry that has its content under a given one. -/
def keysWith (key : String) : List String := ["type", key, "bbox"]

/-- A geometry whose foreign members are foreign, and so all its parts. -/
inductive IsProper : Geometry → Prop
  | single {c : Coordinates} {b : Option Bounds} {more : Members}
      (hmore : IsForeign (keysWith "coordinates") more) : IsProper (single c b more)
  | collection {gs : List Geometry} {b : Option Bounds} {more : Members}
      (hmore : IsForeign (keysWith "geometries") more) (hparts : ∀ g ∈ gs, IsProper g) :
      IsProper (collection gs b more)

/-- The members of a geometry beside the foreign ones. -/
def own (kind key : String) (content : Json) (b : Option Bounds) : Members :=
  [("type", .string kind), (key, content)] ++ boundsPairs b

/-- The members of a geometry, as a record has them. -/
def members (kind key : String) (content : Json) (b : Option Bounds) (more : Members) : Members :=
  Members.ofPairs (own kind key content b ++ more)

theorem isOwn_own {key : String} (hkey : key ≠ "type" ∧ key ≠ "bbox") (kind : String)
    (content : Json) (b : Option Bounds) : IsOwn (keysWith key) (own kind key content b) := by
  cases b with
  | _ => constructor <;> simp [own, boundsPairs, keysWith, hkey, Ne.symm hkey.1]

section Members

variable {kind key : String} {content : Json} {b : Option Bounds} {more : Members}
  (hkey : key ≠ "type" ∧ key ≠ "bbox") (hmore : IsForeign (keysWith key) more)

include hkey hmore

theorem get?_type_members :
    Members.get? "type" (members kind key content b more) = some (.string kind) :=
  get?_own (isOwn_own hkey kind content b) hmore List.mem_cons_self

theorem get?_content_members : Members.get? key (members kind key content b more) = some content := by
  rw [members, get?_own (isOwn_own hkey kind content b) hmore (by simp [keysWith])]
  simp [own, Members.get?, Ne.symm hkey.1]

theorem bounds?_members : bounds? (members kind key content b more) = some b := by
  refine bounds?_of_get? ?_
  rw [members, get?_own (isOwn_own hkey kind content b) hmore (by simp [keysWith])]
  simp [own, Members.get?, hkey.2]

theorem foreign_members : foreign (keysWith key) (members kind key content b more) = more :=
  foreign_ofPairs (isOwn_own hkey kind content b) hmore

end Members

theorem toJson_single (build : List (String × Json) → Json) (c : Coordinates) (b : Option Bounds)
    (more : Members) :
    (single c b more).toJson build = build (own c.kind "coordinates" c.toJson b ++ more) := rfl

theorem allToJson_eq_map (build : List (String × Json) → Json) (gs : List Geometry) :
    allToJson build gs = gs.map (toJson build) := by
  induction gs with
  | nil => rfl
  | cons g gs ih => rw [allToJson, ih, List.map_cons]

theorem toJson_collection (build : List (String × Json) → Json) (gs : List Geometry)
    (b : Option Bounds) (more : Members) :
    (collection gs b more).toJson build =
      build (own collectionKind "geometries" (.array (gs.map (toJson build))) b ++ more) := by
  rw [← allToJson_eq_map]
  rfl

theorem allOf?_eq_mapM (vs : List Json) : allOf? vs = vs.mapM ofJson? := by
  induction vs with
  | nil => rfl
  | cons v vs ih => rw [allOf?, ih, List.mapM_cons]

theorem partsUnder?_eq (ms : Members) :
    partsUnder? ms = (Members.get? "geometries" ms).bind partsOf? := by
  induction ms with
  | nil => rfl
  | cons m ms ih =>
    obtain ⟨k, v⟩ := m
    rw [partsUnder?, Members.get?]
    split
    · rfl
    · exact ih

theorem content_ne : ("coordinates" ≠ "type" ∧ "coordinates" ≠ "bbox") ∧
    ("geometries" ≠ "type" ∧ "geometries" ≠ "bbox") := by decide

/-- A proper geometry is what its record describes. -/
theorem ofJson?_toJson {g : Geometry} (h : g.IsProper) :
    ofJson? (g.toJson Json.ofPairs) = some g := by
  induction h with
  | @single c b more hmore =>
    rw [toJson_single, Json.ofPairs, ← members, ofJson?, ofMembers?,
      get?_type_members content_ne.1 hmore, get?_content_members content_ne.1 hmore,
      bounds?_members content_ne.1 hmore]
    simp only [Option.bind_eq_bind, Option.bind_some, Json.string?,
      if_neg c.kind_ne_collectionKind, c.ofJson?_toJson]
    exact congrArg (fun more => some (single c b more)) (foreign_members content_ne.1 hmore)
  | @collection gs b more hmore hparts ih =>
    have hgs : partsOf? (.array (gs.map (toJson Json.ofPairs))) = some gs := by
      have hmap := @Json.mapM_eq_some_map_iff _ _ (fun g => ofJson? (toJson Json.ofPairs g)) id gs
      rw [List.map_id] at hmap
      rw [partsOf?, allOf?_eq_mapM, List.mapM_map]
      exact hmap.2 ih
    rw [toJson_collection, Json.ofPairs, ← members, ofJson?, ofMembers?, partsUnder?_eq,
      get?_type_members content_ne.2 hmore, get?_content_members content_ne.2 hmore,
      bounds?_members content_ne.2 hmore]
    simp only [Option.bind_eq_bind, Option.bind_some, Json.string?, if_true, hgs]
    exact congrArg (fun more => some (collection gs b more)) (foreign_members content_ne.2 hmore)

/-- What a geometry was read from determines its members. -/
theorem ofMembers?_eq_some {ms : Members} {parts : Option (List Geometry)} {g : Geometry}
    (h : ofMembers? ms parts = some g) :
    (∃ c b, g = single c b (foreign (keysWith "coordinates") ms)) ∨
      ∃ gs b, parts = some gs ∧ g = collection gs b (foreign (keysWith "geometries") ms) := by
  rw [ofMembers?] at h
  obtain ⟨kind, -, h⟩ := Option.bind_eq_some_iff.1 h
  split at h
  · obtain ⟨gs, hgs, h⟩ := Option.bind_eq_some_iff.1 h
    obtain ⟨b, -, h⟩ := Option.bind_eq_some_iff.1 h
    cases h
    exact .inr ⟨gs, b, hgs, rfl⟩
  · obtain ⟨content, -, h⟩ := Option.bind_eq_some_iff.1 h
    obtain ⟨c, -, h⟩ := Option.bind_eq_some_iff.1 h
    obtain ⟨b, -, h⟩ := Option.bind_eq_some_iff.1 h
    cases h
    exact .inl ⟨c, b, rfl⟩

/-- What is read from ordered objects is proper. -/
theorem isProper_of_ofJson? {v : Json} {g : Geometry} (hv : v.IsOrdered)
    (h : ofJson? v = some g) : g.IsProper := by
  -- The parts of a collection stand in an array below it, so arrays take part in the induction.
  suffices hboth : (∀ g, ofJson? v = some g → g.IsProper) ∧
      ∀ gs, partsOf? v = some gs → ∀ g ∈ gs, g.IsProper from hboth.1 g h
  clear h
  induction v using Json.ind with
  | atom v hatom =>
    cases v with
    | array | object => cases hatom
    | _ => exact ⟨nofun, nofun⟩
  | array vs ih =>
    refine ⟨nofun, fun gs hgs g hg => ?_⟩
    rw [partsOf?, allOf?_eq_mapM] at hgs
    obtain ⟨v, hmem, hvg⟩ := Json.exists_of_mem_mapM hgs hg
    exact (ih v hmem (hv.items v hmem)).1 g hvg
  | object ms ih =>
    refine ⟨fun g hg => ?_, nofun⟩
    rw [ofJson?] at hg
    obtain ⟨c, b, rfl⟩ | ⟨gs, b, hgs, rfl⟩ := ofMembers?_eq_some hg
    · exact .single (isForeign_foreign hv.members.1 _)
    · refine .collection (isForeign_foreign hv.members.1 _) ?_
      rw [partsUnder?_eq] at hgs
      obtain ⟨parts, hparts, hgs⟩ := Option.bind_eq_some_iff.1 hgs
      exact (ih _ (Members.mem_of_get? hparts) (hv.get? hparts)).2 gs hgs

/-- The text of a geometry is read as its record when the text of the record is. -/
theorem reread_toJson_object {g : Geometry} (h : g.IsProper) {depth : Nat}
    (hself : reread depth (g.toJson Json.ofPairs) = some (g.toJson Json.ofPairs)) :
    reread depth (g.toJson .object) = some (g.toJson Json.ofPairs) := by
  induction h generalizing depth with
  | @single c b more hmore =>
    obtain _ | depth := depth
    · cases hself
    have hnodup := nodup_keys (isOwn_own content_ne.1 c.kind c.toJson b) hmore
    rw [toJson_single] at hself
    rw [toJson_single, toJson_single, Json.reread_object, Json.rereadMembers_of_ofPairs hnodup hself]
    rfl
  | @collection gs b more hmore hparts ih =>
    obtain _ | depth := depth
    · cases hself
    rw [toJson_collection] at hself
    have hnodup := nodup_keys (isOwn_own content_ne.2 collectionKind
      (.array (gs.map (toJson Json.ofPairs))) b) hmore
    obtain ⟨hkind, hall⟩ := Json.rereadMembers_cons_iff.1 (Json.rereadMembers_of_ofPairs hnodup hself)
    obtain ⟨hparts, hrest⟩ := Json.rereadMembers_cons_iff.1 hall
    have hfile : reread depth (.array (gs.map (toJson .object))) =
        some (.array (gs.map (toJson Json.ofPairs))) := by
      obtain _ | depth := depth
      · cases hparts
      rw [Json.reread_array_map_iff] at hparts ⊢
      exact fun g hg => ih g hg (hparts g hg)
    rw [toJson_collection, toJson_collection, Json.reread_object]
    exact congrArg (Option.map Json.ofPairs)
      (Json.rereadMembers_cons_iff.2 ⟨hkind, Json.rereadMembers_cons_iff.2 ⟨hfile, hrest⟩⟩)

end Geometry

/-! ### Features -/

namespace Feature

/-- The keys of a feature. -/
def keys : List String := ["type", "geometry", "properties", "bbox", "id"]

/-- A feature whose foreign members are foreign, and so those of its geometry. -/
structure IsProper (f : Feature) : Prop where
  geometry : ∀ g ∈ f.geometry, g.IsProper
  foreign : IsForeign keys f.foreign

/-- The geometry of a feature as a JSON value. -/
def place (build : List (String × Json) → Json) (f : Feature) : Json :=
  (f.geometry.map (Geometry.toJson build)).getD .null

/-- The members of a feature behind its geometry and beside the foreign ones. -/
def attributes (f : Feature) : Members :=
  ("properties", (f.properties.map Json.object).getD .null) ::
    (boundsPairs f.bounds ++ (f.identifier.map fun i => ("id", i.toJson)).toList)

/-- The members of a feature beside the foreign ones. -/
def own (build : List (String × Json) → Json) (f : Feature) : Members :=
  ("type", .string "Feature") :: ("geometry", f.place build) :: f.attributes

theorem pairs_eq (build : List (String × Json) → Json) (f : Feature) :
    f.pairs build = f.own build ++ f.foreign := by
  simp [pairs, own, place, attributes]

/-- A feature as a JSON value with its members in the order of a file. -/
def fileJson (f : Feature) : Json := .object (f.pairs .object)

theorem isOwn_own (build : List (String × Json) → Json) (f : Feature) :
    IsOwn keys (f.own build) := by
  obtain ⟨g, ps, b, i, more⟩ := f
  cases b <;> cases i <;> constructor <;> simp [own, attributes, boundsPairs, keys]

theorem geometry?_of_get? {ms : Members} {f : Feature} (h : f.IsProper)
    (hget : Members.get? "geometry" ms = some (f.place Json.ofPairs)) :
    geometry? ms = some f.geometry := by
  cases hg : f.geometry with
  | none =>
    rw [ geometry?, hget, place, hg]
    rfl
  | some g =>
    have hplace : f.place Json.ofPairs = g.toJson Json.ofPairs := by rw [place, hg]; rfl
    have hread := Geometry.ofJson?_toJson (h.geometry g hg)
    obtain ⟨ms, hms⟩ : ∃ ms, g.toJson Json.ofPairs = .object ms := by
      cases g with
      | _ => exact ⟨_, rfl⟩
    rw [ geometry?, hget, hplace]
    rw [hms] at hread ⊢
    exact congrArg (Option.map some) hread

theorem properties?_of_get? {ms : Members} {ps : Option Members}
    (h : Members.get? "properties" ms = some ((ps.map Json.object).getD .null)) :
    properties? ms = some ps := by
  cases ps with
  | _ => rw [properties?, h]; rfl

theorem identifier?_of_get? {ms : Members} {i : Option Identifier}
    (h : Members.get? "id" ms = i.map Identifier.toJson) : identifier? ms = some i := by
  rcases i with _ | s | n
  · rw [identifier?, h]
    rfl
  · rw [identifier?, h]
    rfl
  · rw [identifier?, h]
    rfl

/-- Members that claim to be a feature's and that hold its parts are read as the feature. -/
theorem ofJson?_of_parts {ms : Members} {f : Feature}
    (htype : Members.get? "type" ms = some (.string "Feature"))
    (hgeometry : geometry? ms = some f.geometry) (hproperties : properties? ms = some f.properties)
    (hbounds : bounds? ms = some f.bounds) (hid : identifier? ms = some f.identifier)
    (hforeign : GeoJson.foreign keys ms = f.foreign) : ofJson? (.object ms) = some f := by
  have hclaim : isClaimedBy (.object ms) = true := by
    rw [isClaimedBy, Json.get?, Json.members?, Option.bind_some, htype]
    rfl
  rw [keys] at hforeign
  simp only [ofJson?, Json.members?, Option.bind_eq_bind, Option.bind_some, hclaim, if_true,
    hgeometry, hproperties, hbounds, hid, hforeign]
  rfl

/-- The members of a feature, as its record has them. -/
def recordMembers (f : Feature) : Members := Members.ofPairs (f.own Json.ofPairs ++ f.foreign)

theorem toRecord_eq (f : Feature) : f.toRecord = .object f.recordMembers := by
  rw [toRecord, pairs_eq]
  rfl

theorem get?_recordMembers {f : Feature} (h : f.IsProper) {key : String} (hkey : key ∈ keys) :
    Members.get? key f.recordMembers = Members.get? key (f.own Json.ofPairs) :=
  get?_own (isOwn_own Json.ofPairs f) h.foreign hkey

theorem get?_own_bbox (f : Feature) :
    Members.get? "bbox" (f.own Json.ofPairs) = Members.get? "bbox" (boundsPairs f.bounds) := by
  obtain ⟨g, ps, b, i, more⟩ := f
  cases b <;> cases i <;> simp [own, attributes, boundsPairs, Members.get?]

theorem get?_own_id (f : Feature) :
    Members.get? "id" (f.own Json.ofPairs) = f.identifier.map Identifier.toJson := by
  obtain ⟨g, ps, b, i, more⟩ := f
  cases b <;> cases i <;> simp [own, attributes, boundsPairs, Members.get?]

/-- A proper feature is what its record describes. -/
theorem ofJson?_toRecord {f : Feature} (h : f.IsProper) : ofJson? f.toRecord = some f := by
  rw [toRecord_eq]
  refine ofJson?_of_parts (get?_recordMembers h (by decide)) ?_ ?_ ?_ ?_ ?_
  · exact geometry?_of_get? h (get?_recordMembers h (by decide))
  · exact properties?_of_get? (get?_recordMembers h (by decide))
  · exact bounds?_of_get? ((get?_recordMembers h (by decide)).trans (get?_own_bbox f))
  · exact identifier?_of_get? ((get?_recordMembers h (by decide)).trans (get?_own_id f))
  · exact foreign_ofPairs (isOwn_own Json.ofPairs f) h.foreign

/-- What is read from ordered objects is proper. -/
theorem isProper_of_ofJson? {v : Json} {f : Feature} (hv : v.IsOrdered)
    (h : ofJson? v = some f) : f.IsProper := by
  cases v with
  | object ms =>
    rw [ofJson?] at h
    obtain ⟨_, hms, h⟩ := Option.bind_eq_some_iff.1 h
    cases hms
    split at h
    · obtain ⟨geometry, hgeometry, h⟩ := Option.bind_eq_some_iff.1 h
      obtain ⟨_, -, h⟩ := Option.bind_eq_some_iff.1 h
      obtain ⟨_, -, h⟩ := Option.bind_eq_some_iff.1 h
      obtain ⟨_, -, h⟩ := Option.bind_eq_some_iff.1 h
      cases h
      refine ⟨fun g hg => ?_, isForeign_foreign hv.members.1 keys⟩
      obtain rfl : geometry = some g := hg
      unfold geometry? at hgeometry
      split at hgeometry
      · cases hgeometry
      · rename_i place _ hplace
        obtain ⟨g', hg', he⟩ := Option.map_eq_some_iff.1 hgeometry
        cases he
        exact Geometry.isProper_of_ofJson? (hv.get? hplace) hg'
      · cases hgeometry
    · cases h
  | _ => cases h

/-- The text of a place is read as it stands in a record. -/
theorem reread_place {f : Feature} (h : f.IsProper) {depth : Nat}
    (hself : reread depth (f.place Json.ofPairs) = some (f.place Json.ofPairs)) :
    reread depth (f.place .object) = some (f.place Json.ofPairs) := by
  obtain ⟨_ | g, ps, b, i, more⟩ := f
  · exact hself
  · exact Geometry.reread_toJson_object (h.geometry g rfl) hself

/-- The text of a feature is read as its record when the text of the record is. -/
theorem reread_fileJson {f : Feature} (h : f.IsProper) {depth : Nat}
    (hself : reread depth f.toRecord = some f.toRecord) :
    reread depth f.fileJson = some f.toRecord := by
  obtain _ | depth := depth
  · cases hself
  have hnodup := nodup_keys (isOwn_own Json.ofPairs f) h.foreign
  have hall : rereadMembers depth (f.own Json.ofPairs ++ f.foreign) =
      some (f.own Json.ofPairs ++ f.foreign) := by
    refine Json.rereadMembers_of_ofPairs hnodup ?_
    rwa [toRecord, pairs_eq] at hself
  obtain ⟨htype, hall⟩ := Json.rereadMembers_cons_iff.1 hall
  obtain ⟨hplace, hrest⟩ := Json.rereadMembers_cons_iff.1 hall
  rw [fileJson, toRecord, pairs_eq, pairs_eq, Json.reread_object]
  exact congrArg (Option.map Json.ofPairs) (Json.rereadMembers_cons_iff.2
    ⟨htype, Json.rereadMembers_cons_iff.2 ⟨reread_place h hplace, hrest⟩⟩)

/-! ### Records as features -/

theorem isClaimedBy_toRecord {f : Feature} (h : f.IsProper) : isClaimedBy f.toRecord = true := by
  rw [toRecord_eq, isClaimedBy, Json.get?, Json.members?, Option.bind_some,
    get?_recordMembers h (by decide)]
  rfl

end Feature

/-! ### Collections -/

/-- A collection of features as a JSON value, with its members in the order of a file. -/
def collectionJson (features : List Json) : Json :=
  .object [("type", .string "FeatureCollection"), ("features", .array features)]

/-- The text of a collection is read as the collection of the records of its features. -/
theorem reread_collectionJson {fs : List Feature} (h : ∀ f ∈ fs, f.IsProper) {depth : Nat}
    (hself : ∀ f ∈ fs, reread depth f.toRecord = some f.toRecord) :
    reread (depth + 2) (collectionJson (fs.map Feature.fileJson)) =
      some (.ofPairs [("type", .string "FeatureCollection"),
        ("features", .array (fs.map Feature.toRecord))]) := by
  have hfeatures : reread (depth + 1) (.array (fs.map Feature.fileJson)) =
      some (.array (fs.map Feature.toRecord)) :=
    Json.reread_array_map_iff.2 fun f hf => Feature.reread_fileJson (h f hf) (hself f hf)
  rw [collectionJson, Json.reread_object]
  exact congrArg (Option.map Json.ofPairs) (Json.rereadMembers_cons_iff.2
    ⟨rfl, Json.rereadMembers_cons_iff.2 ⟨hfeatures, rfl⟩⟩)

/-- The features of a document: of a collection all, and a single feature. -/
def Document.features : Document → List Feature
  | collection fs => fs
  | feature f => [f]
  | geometry _ => []

/-- What is read from ordered objects is proper. -/
theorem Document.isProper_of_ofJson? {v : Json} {d : Document} (hv : v.IsOrdered)
    (h : ofJson? v = some d) : ∀ f ∈ d.features, f.IsProper := by
  cases v with
  | object ms =>
    rw [ofJson?] at h
    obtain ⟨_, hms, h⟩ := Option.bind_eq_some_iff.1 h
    cases hms
    obtain ⟨kind, -, h⟩ := Option.bind_eq_some_iff.1 h
    split at h
    · obtain ⟨fs, hfs, rfl⟩ := Option.map_eq_some_iff.1 h
      rw [collection?] at hfs
      obtain ⟨_, -, hfs⟩ := Option.bind_eq_some_iff.1 hfs
      obtain ⟨list, hlist, hfs⟩ := Option.bind_eq_some_iff.1 hfs
      cases list with
      | array vs =>
        intro f hf
        obtain ⟨w, hw, hwf⟩ := Json.exists_of_mem_mapM hfs hf
        exact Feature.isProper_of_ofJson? ((hv.get? hlist).items w hw) hwf
      | _ => cases hfs
    · split at h
      · obtain ⟨f, hf, rfl⟩ := Option.map_eq_some_iff.1 h
        exact List.forall_mem_singleton.2 (Feature.isProper_of_ofJson? hv hf)
      · obtain ⟨g, -, rfl⟩ := Option.map_eq_some_iff.1 h
        exact nofun
  | _ => cases h

/-- A collection of records of features holds these features. -/
theorem Document.ofJson?_collection {fs : List Feature} (h : ∀ f ∈ fs, f.IsProper) :
    Document.ofJson? (.ofPairs [("type", .string "FeatureCollection"),
      ("features", .array (fs.map Feature.toRecord))]) = some (.collection fs) := by
  have hget : ∀ key, Members.get? key (Members.ofPairs [("type", .string "FeatureCollection"),
      ("features", .array (fs.map Feature.toRecord))]) = Members.get? key
        [("type", .string "FeatureCollection"), ("features", .array (fs.map Feature.toRecord))] :=
    Members.get?_ofPairs (by simp)
  have hlist : listOf? Feature.ofJson? (.array (fs.map Feature.toRecord)) = some fs := by
    have hmap := @Json.mapM_eq_some_map_iff _ _ (fun f => Feature.ofJson? f.toRecord) id fs
    rw [List.map_id] at hmap
    rw [listOf?, List.mapM_map]
    exact hmap.2 fun f hf => Feature.ofJson?_toRecord (h f hf)
  have hkind := hget "type"
  have hbox := hget "bbox"
  have hfeatures := hget "features"
  rw [Members.get?_cons_self] at hkind
  rw [Members.get?_cons_of_ne (by decide), Members.get?_cons_self] at hfeatures
  rw [Members.get?_cons_of_ne (by decide), Members.get?_cons_of_ne (by decide)] at hbox
  have hbounds : bounds? (Members.ofPairs [("type", .string "FeatureCollection"),
      ("features", .array (fs.map Feature.toRecord))]) = some none := by
    rw [bounds?, hbox]
    rfl
  simp only [Document.ofJson?, Json.ofPairs, Json.members?, Option.bind_eq_bind, Option.bind_some,
    hkind, Json.string?, if_true, collection?, hbounds, hfeatures, hlist]
  rfl

end RecordSieve.GeoJson
