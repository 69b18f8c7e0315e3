import QueryDepth.Proofs.Json.Values
import QueryDepth.Report

/-!
# Reports are read back

A report is printed as JSON in the indented form of `Report.json`, which is an exact value as long
as no operation has two depths. `Report.ofJson?` is what a reader of that value learns.

**Theorem (`read_printed`).** The printed text is ASCII, reading it gives `Report.json` back, and
that value tells the whole report: the limit, the depths in their order, and the findings in theirs
with messages and locations.
-/

namespace QueryDepth

/-! ## What the value tells -/

def Location.ofJson? : Json → Option Location
  | .arr [.int (.ofNat line), .int (.ofNat column)] => some ⟨line, column⟩
  | _ => none

def Finding.ofJson? (j : Json) : Option Finding := do
  let message ← (← j.get? "message").asString?
  let locations ← (← j.get? "locations").asArray?
  return ⟨message, ← locations.mapM Location.ofJson?⟩

namespace Report

/-- The name and the depth of a member. -/
def depthOfMember? : String × Json → Option (String × Int)
  | (name, .int depth) => some (name, depth)
  | _ => none

def ofJson? (j : Json) : Option Report := do
  let .int limit ← j.get? "max_depth" | none
  let .obj depths ← j.get? "depths" | none
  let findings ← (← j.get? "errors").asArray?
  return ⟨limit, ← depths.mapM depthOfMember?, ← findings.mapM Finding.ofJson?⟩

end Report

theorem mapM_map_eq_some {α β : Type} {write : α → β} {read? : β → Option α}
    (h : ∀ a, read? (write a) = some a) (l : List α) : (l.map write).mapM read? = some l := by
  induction l with
  | nil => rfl
  | cons a l ih => simp [List.mapM_cons, h, ih]

theorem Location.ofJson?_locationJson (l : Location) : ofJson? (Report.locationJson l) = some l :=
  rfl

theorem Finding.ofJson?_findingJson (f : Finding) : ofJson? (Report.findingJson f) = some f := by
  have hlocations : (f.locations.map Report.locationJson).mapM Location.ofJson? =
      some f.locations := mapM_map_eq_some Location.ofJson?_locationJson f.locations
  simp [ofJson?, Report.findingJson, Json.get?, List.lookup_cons, Json.asString?, Json.asArray?,
    hlocations]

namespace Report

theorem ofJson?_json (r : Report) : ofJson? r.json = some r := by
  have hmember : ∀ d : String × Int, depthOfMember? (d.1, Json.int d.2) = some d := fun _ => rfl
  have hdepths : (r.depths.map fun d => (d.1, Json.int d.2)).mapM depthOfMember? = some r.depths :=
    mapM_map_eq_some hmember r.depths
  have hfindings : (r.findings.map findingJson).mapM Finding.ofJson? = some r.findings :=
    mapM_map_eq_some Finding.ofJson?_findingJson r.findings
  have hjson : r.json = .obj [("max_depth", .int r.limit),
      ("depths", .obj (r.depths.map fun d => (d.1, .int d.2))),
      ("errors", .arr (r.findings.map findingJson))] := rfl
  rw [hjson]
  simp [ofJson?, Json.get?, List.lookup_cons, Json.asArray?, hdepths, hfindings]

/-! ## The value is exact -/

theorem exact_locationJson (l : Location) : (locationJson l).Exact := by
  refine .arr fun v hv => ?_
  simp only [List.mem_cons, List.not_mem_nil, or_false] at hv
  rcases hv with rfl | rfl
  · exact .int _
  · exact .int _

theorem exact_findingJson (f : Finding) : (findingJson f).Exact := by
  refine .obj (by simp) fun m hm => ?_
  simp only [List.mem_cons, List.not_mem_nil, or_false] at hm
  rcases hm with rfl | rfl
  · exact .str f.message
  · refine .arr fun v hv => ?_
    obtain ⟨l, -, rfl⟩ := List.mem_map.1 hv
    exact exact_locationJson l

theorem exact_json {r : Report} (hnames : (r.depths.map Prod.fst).Nodup) : r.json.Exact := by
  refine .obj (by simp) fun m hm => ?_
  simp only [List.mem_cons, List.not_mem_nil, or_false] at hm
  rcases hm with rfl | rfl | rfl
  · exact .int r.limit
  · refine .obj ?_ fun m hm => ?_
    · rwa [List.map_map]
    · obtain ⟨⟨name, depth⟩, -, rfl⟩ := List.mem_map.1 hm
      exact .int depth
  · refine .arr fun v hv => ?_
    obtain ⟨f, -, rfl⟩ := List.mem_map.1 hv
    exact exact_findingJson f

/-! ## Reading back -/

/-- **A report printed as JSON is read back.** The text is ASCII, it is printed without an error,
and reading it gives a value that tells the limit, every depth and every finding, in order. Each
operation has one depth. -/
theorem read_printed [Console.MarkupLibrary] (r : Report)
    (hnames : (r.depths.map Prod.fst).Nodup) :
    (r.printed "json").2 = none ∧ Json.IsAscii (r.printed "json").1.toList ∧
      Json.read (r.printed "json").1 = .ok r.json ∧ ofJson? r.json = some r := by
  have hexact : r.json.Exact := exact_json hnames
  have hprinted : r.printed "json" = (r.json.pretty ++ "\n", none) := if_pos rfl
  rw [hprinted]
  refine ⟨rfl, ?_, ?_, ofJson?_json r⟩
  · rw [String.toList_append, Json.pretty, String.toList_ofList, Json.isAscii_append]
    exact ⟨hexact.isAscii 0, by simp⟩
  · exact Json.read_pretty hexact (by simp [Json.isBlank])

/-- Texts that need every kind of escape, an integer of many digits, and findings with two places
and with none. -/
def awkward : Report where
  limit := -123456789012345678901234567890
  depths := [("", -1), ("a\"b\\c/\x00\x07\x7f", 0), ("é\u2028😀", 3)]
  findings := [⟨"'Fragment \t\r\n\x08\x0c not found", [⟨1, 2⟩, ⟨30, 4⟩]⟩, ⟨"", []⟩]

theorem read_printed_awkward : (awkward.depths.map Prod.fst).Nodup ∧
    (awkward.printed "json").2 = none ∧ Json.IsAscii (awkward.printed "json").1.toList ∧
    Json.read (awkward.printed "json").1 = .ok awkward.json ∧ ofJson? awkward.json = some awkward :=
  ⟨by decide, read_printed awkward (by decide)⟩

end Report

end QueryDepth
