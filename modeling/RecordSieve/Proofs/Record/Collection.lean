import RecordSieve.Proofs.Record.RoundTrip
/-!
# RecordSieve.Proofs.Record.Collection

A collection of features that survives refused records.

A caller who goes on after a refused record finds the writer as it was
(`Writer.offer`). Whatever records are offered in whatever order, the file in the end
is that of the records taken (`Writer.offerAll_holding`), and each refusal names how
many were taken before it (`Writer.results_offerAll`).
-/

namespace RecordSieve

open GeoJson (Feature)

/-- Why a collection refuses a record, if it does. -/
def GeoJson.Feature.refusal? (position : Nat) (record : Json) : Option WriteError :=
  match ofRecord? record with
  | some _ => none
  | none =>
    some (if isClaimedBy record then .invalidFeature position else .notFeature position record)

/-- The features that stand for records, in their order; what has none is left out. -/
def GeoJson.featuresOf (records : List Json) : List Feature :=
  records.filterMap Feature.ofRecord?

namespace Writer

open GeoJson (featuresOf)

/-- Offers a record: the writer afterwards, and the error if the record was refused. -/
def offer (w : Writer) (record : Json) : Writer × Option WriteError :=
  match w.add record with
  | .ok next => (next, none)
  | .error e => (w, some e)

/-- Offers one record after another, whether they are taken or not. -/
def offerAll (w : Writer) : List Json → Writer × List (Option WriteError)
  | [] => (w, [])
  | r :: rs =>
    let (next, result) := w.offer r
    let (last, results) := next.offerAll rs
    (last, result :: results)

theorem offerAll_cons (w : Writer) (r : Json) (rs : List Json) :
    w.offerAll (r :: rs) =
      (((w.offer r).1.offerAll rs).1, (w.offer r).2 :: ((w.offer r).1.offerAll rs).2) := rfl

/-- A refused record is refused for the reason that it has. -/
theorem item_of_refused {record : Json} (h : Feature.ofRecord? record = none) (position : Nat) :
    ∃ e, item .geojson position record = .error e ∧ Feature.refusal? position record = some e := by
  have hrefusal : Feature.refusal? position record =
      some (if Feature.isClaimedBy record then .invalidFeature position
        else .notFeature position record) := by
    rw [Feature.refusal?, h]
  refine ⟨_, ?_, hrefusal⟩
  rw [Feature.ofRecord?] at h
  rw [item, feature]
  by_cases hclaim : Feature.isClaimedBy record = true
  · rw [if_pos hclaim] at h ⊢
    rw [h, if_pos hclaim]
    rfl
  · rw [if_neg hclaim] at h ⊢
    rw [Option.map_eq_none_iff.1 h, if_neg hclaim]
    rfl

/-- A record that is offered to a collection adds its feature or leaves no trace. -/
theorem offer_holding (fs : List Feature) (record : Json) :
    (holding .geojson (fs.map Feature.text)).offer record =
      (holding .geojson ((fs ++ (Feature.ofRecord? record).toList).map Feature.text),
        Feature.refusal? fs.length record) := by
  cases h : Feature.ofRecord? record with
  | some f =>
    have htext : itemText? .geojson record = some f.text := by rw [itemText?, h]; rfl
    rw [offer, add_holding htext, Feature.refusal?, h, Option.toList_some, List.map_append,
      List.map_singleton]
  | none =>
    obtain ⟨e, hitem, hrefusal⟩ := item_of_refused h fs.length
    have hadd : (holding .geojson (fs.map Feature.text)).add record = .error e := by
      rw [add, format_holding, accepted_holding, List.length_map, hitem, Except.map]
    rw [offer, hadd, hrefusal, Option.toList_none, List.append_nil]

/-- The collection after any offers is that of the features of the records taken. -/
theorem offerAll_holding (fs : List Feature) (records : List Json) :
    ((holding .geojson (fs.map Feature.text)).offerAll records).1 =
      holding .geojson ((fs ++ featuresOf records).map Feature.text) := by
  induction records generalizing fs with
  | nil => rw [featuresOf, List.filterMap_nil, List.append_nil, offerAll]
  | cons r records ih =>
    rw [offerAll_cons, offer_holding, ih, List.append_assoc, featuresOf, featuresOf,
      List.filterMap_cons]
    cases Feature.ofRecord? r with
    | _ => rfl

/-- Every offer is answered by how many records were taken before it. -/
theorem results_offerAll (fs : List Feature) (records : List Json) (i : Nat) :
    ((holding .geojson (fs.map Feature.text)).offerAll records).2[i]? =
      records[i]?.map fun r =>
        Feature.refusal? (fs.length + (featuresOf (records.take i)).length) r := by
  induction records generalizing fs i with
  | nil => rfl
  | cons r records ih =>
    rw [offerAll_cons, offer_holding]
    cases i with
    | zero => simp [featuresOf]
    | succ i =>
      rw [List.getElem?_cons_succ, List.getElem?_cons_succ, ih, List.take_succ_cons, featuresOf,
        featuresOf, List.filterMap_cons, List.length_append]
      cases Feature.ofRecord? r with
      | none => simp
      | some f => simp [Nat.add_assoc, Nat.add_comm 1]

theorem length_results_offerAll (w : Writer) (records : List Json) :
    (w.offerAll records).2.length = records.length := by
  induction records generalizing w with
  | nil => rfl
  | cons r records ih => rw [offerAll_cons, List.length_cons, ih, List.length_cons]

/-- The records taken alone give the same collection. -/
theorem addAll_taken (records : List Json) :
    (start .geojson).addAll (records.filter fun r => (Feature.ofRecord? r).isSome) =
      (holding .geojson ((featuresOf records).map Feature.text), none) := by
  have htexts : (records.filter fun r => (Feature.ofRecord? r).isSome).map (itemText? .geojson) =
      ((featuresOf records).map Feature.text).map some := by
    induction records with
    | nil => rfl
    | cons r records ih =>
      cases h : Feature.ofRecord? r with
      | none => simpa [featuresOf, h] using ih
      | some f => simpa [featuresOf, itemText?, h] using ih
  exact addAll_of_texts htexts

end Writer

open GeoJson (featuresOf)

/-- A collection survives refused records. Whatever records are offered in whatever
order, the file in the end is the text of one collection. Its features are those of the
records taken, in their order: a record that claims to be a feature is rewritten as the
feature that it describes, any other object becomes the properties of a feature without
a place. A refused record leaves no trace, and its error names the number of records
taken before it. -/
theorem collection_of_offers (records : List Json) :
    ∃ (w : Writer) (results : List (Option WriteError)),
      (Writer.start .geojson).offerAll records = (w, results) ∧
      Json.LaidOut (GeoJson.collectionJson ((featuresOf records).map Feature.fileJson))
        w.finish.toList ∧
      w.finish = Writer.opening .geojson ++
        ",\n".intercalate ((featuresOf records).map Feature.text) ++
          Writer.closing (featuresOf records).length .geojson ∧
      (Writer.start .geojson).addAll (records.filter fun r => (Feature.ofRecord? r).isSome) =
        (w, none) ∧
      results.length = records.length ∧
      (∀ i r, records[i]? = some r →
        results[i]? = some (Feature.refusal? (featuresOf (records.take i)).length r)) ∧
      (∀ r, Feature.isClaimedBy r = true → Feature.ofRecord? r = Feature.ofJson? r) ∧
      (∀ ms, Feature.isClaimedBy (.object ms) = false →
        (Feature.ofRecord? (.object ms)).map Feature.fileJson = some (.object
          [("type", .string "Feature"), ("geometry", .null), ("properties", .object ms)])) := by
  have hstart : Writer.start .geojson = Writer.holding .geojson (([] : List Feature).map Feature.text) :=
    Writer.start_eq_holding .geojson
  have hwriter := Writer.offerAll_holding [] records
  have hresults := Writer.results_offerAll [] records
  rw [← hstart, List.nil_append] at hwriter
  rw [← hstart] at hresults
  refine ⟨_, _, rfl, ?_, ?_, ?_, Writer.length_results_offerAll _ records, ?_, ?_, ?_⟩
  · rw [hwriter]
    exact Writer.laidOut_collection (featuresOf records)
  · rw [hwriter, Writer.finish, Writer.accepted_holding, List.length_map]
    rfl
  · rw [hwriter]
    exact Writer.addAll_taken records
  · intro i r hr
    rw [hresults, hr, List.length_nil, Nat.zero_add, Option.map_some]
  · intro r hclaim
    rw [Feature.ofRecord?, if_pos hclaim]
  · intro ms hclaim
    rw [Feature.ofRecord?, if_neg (Bool.eq_false_iff.1 hclaim)]
    rfl

end RecordSieve
