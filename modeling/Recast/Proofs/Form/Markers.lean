-- Maps of markers are read back from the text of a marker file: with all
-- entries, under the spellings of their paths, and with the markers of each
-- entry in their order.
import Recast.Marker.Store
import Recast.Proofs.Form.Units
import Recast.Proofs.MarkerMap

namespace Recast

namespace MarkerMap

/-! ## Entries that come in one after the other -/

/-- The map of some entries. Of two entries for one path the later counts. -/
def of (entries : List (Path × List Marker)) : MarkerMap :=
  entries.foldl (fun m entry => m.set entry.1 entry.2) .empty

theorem sorted_set {m : MarkerMap} (hs : m.Sorted) (unit : Path) (markers : List Marker) :
    (m.set unit markers).Sorted := sorted_alterIn unit _ hs

theorem sorted_foldl {m : MarkerMap} (hs : m.Sorted) (entries : List (Path × List Marker)) :
    (entries.foldl (fun m entry => m.set entry.1 entry.2) m).Sorted := by
  induction entries generalizing m with
  | nil => exact hs
  | cons entry rest ih => exact ih (sorted_set hs entry.1 entry.2)

theorem sorted_of (entries : List (Path × List Marker)) : (of entries).Sorted :=
  sorted_foldl sorted_empty entries

/-- A path that is behind all others gets its entry at the end. -/
theorem alterIn_last {unit : Path} (f : Option (List Marker) → List Marker)
    {entries : List (Path × List Marker)} (h : ∀ e ∈ entries, e.1.compare unit = .lt) :
    alterIn unit f entries = entries ++ [(unit, f none)] := by
  induction entries with
  | nil => rfl
  | cons entry rest ih =>
    obtain ⟨p, ms⟩ := entry
    rw [List.forall_mem_cons] at h
    obtain ⟨hp, hrest⟩ := h
    have hgt : unit.compare p = .gt := by
      rw [Path.compare_swap, hp]
      rfl
    unfold alterIn
    rw [hgt, ih hrest]
    rfl

/-- A path that is not there yet gets an entry beside the others. -/
theorem perm_alterIn {unit : Path} (f : Option (List Marker) → List Marker)
    {entries : List (Path × List Marker)} (h : ∀ e ∈ entries, e.1.same unit = false) :
    (alterIn unit f entries).Perm ((unit, f none) :: entries) := by
  induction entries with
  | nil => exact List.Perm.refl _
  | cons entry rest ih =>
    obtain ⟨p, ms⟩ := entry
    rw [List.forall_mem_cons] at h
    obtain ⟨hp, hrest⟩ := h
    unfold alterIn
    split
    · exact List.Perm.refl _
    · rename_i heq
      rw [Path.same_comm, Path.compare_eq_iff.mp heq] at hp
      cases hp
    · exact ((ih hrest).cons (p, ms)).trans (List.Perm.swap _ _ _)

/-- Entries for different paths are all kept. -/
theorem perm_of {entries : List (Path × List Marker)}
    (h : entries.Pairwise fun a b => a.1.same b.1 = false) : (of entries).entries.Perm entries := by
  have hgeneral : ∀ (rest : List (Path × List Marker)) (m : MarkerMap),
      (m.entries ++ rest).Pairwise (fun a b => a.1.same b.1 = false) →
      (rest.foldl (fun m entry => m.set entry.1 entry.2) m).entries.Perm (m.entries ++ rest) := by
    intro rest
    induction rest with
    | nil =>
      intro m _
      rw [List.append_nil]
      exact List.Perm.refl _
    | cons entry rest ih =>
      intro m hm
      obtain ⟨_, _, hacross⟩ := List.pairwise_append.mp hm
      have hset : (m.set entry.1 entry.2).entries.Perm (entry :: m.entries) :=
        perm_alterIn _ fun e he => hacross e he entry List.mem_cons_self
      have hmove : ((m.set entry.1 entry.2).entries ++ rest).Perm (m.entries ++ entry :: rest) :=
        (hset.append_right rest).trans List.perm_middle.symm
      refine (ih (m.set entry.1 entry.2) ?_).trans hmove
      refine (hmove.pairwise_iff ?_).mpr hm
      intro a b hab
      rw [Path.same_comm]
      exact hab
  exact hgeneral entries .empty h

end MarkerMap

namespace Form

open Json.Reader
open Recast.Json (depth itemsDepth fieldsDepth)

/-! ## The form of markers -/

theorem carries_marker (m : Marker) : Carries marker (writeMarker m) m :=
  carries_record (by simp)
    (.required (carries_text _) rfl (.required (carries_severity _) rfl
      (.required (carries_uint64 _) rfl (.required (carries_uint64 _) rfl
        (.required (carries_uint32 _) rfl (.defaulted (carries_bool _) rfl .pure))))))

theorem carries_markers (ms : List Marker) :
    Carries (list marker) (.array (ms.map writeMarker)) ms :=
  carries_list fun m _ => carries_marker m

/-- The field of an entry. -/
def writeEntry (entry : Path × List Marker) : String × Json :=
  (entry.1.text, .array (entry.2.map writeMarker))

/-- A marker map is an object of lists of objects. -/
theorem fieldsDepth_entries (entries : List (Path × List Marker)) :
    fieldsDepth (entries.map writeEntry) ≤ 2 := by
  have hmarkers : ∀ ms : List Marker, itemsDepth (ms.map writeMarker) ≤ 1 := by
    intro ms
    induction ms with
    | nil => simp [itemsDepth]
    | cons m ms ih =>
      have hm : (writeMarker m).depth = 1 := rfl
      rw [List.map_cons, itemsDepth, hm]
      omega
  induction entries with
  | nil => simp [fieldsDepth]
  | cons entry rest ih =>
    have hentry := hmarkers entry.2
    rw [List.map_cons, writeEntry, fieldsDepth, depth]
    omega

theorem wellFormed_entries (entries : List (Path × List Marker)) :
    Json.wellFormedFields (entries.map writeEntry) = true := by
  induction entries with
  | nil => rfl
  | cons entry rest ih =>
    rw [List.map_cons, writeEntry, Json.wellFormedFields, (carries_markers entry.2).wellFormed, ih]
    rfl

/-- One field is read into a map. -/
def readEntry (room : Nat) (m : MarkerMap) (field : String × Json) : Option MarkerMap :=
  (Json.Reader.list marker room field.2).map (m.set ⟨field.1⟩)

theorem markerMap_object (room : Nat) (fields : List (String × Json)) :
    markerMap (room + 1) (.object fields) = fields.foldlM (readEntry room) .empty := by
  unfold markerMap
  dsimp only
  congr
  funext m field
  unfold readEntry
  cases Json.Reader.list marker room field.2 <;> rfl

theorem readEntry_writeEntry {room : Nat} {entry : Path × List Marker}
    (h : (writeEntry entry).2.depth ≤ room) (m : MarkerMap) :
    readEntry room m (writeEntry entry) = some (m.set entry.1 entry.2) := by
  unfold readEntry
  rw [writeEntry, (carries_markers entry.2).reads room h]
  rfl

/-- Entries in order are put behind those that are there. -/
theorem read_entries {room : Nat} (before entries : List (Path × List Marker))
    (hdepth : fieldsDepth (entries.map writeEntry) ≤ room)
    (hs : (before ++ entries).Pairwise fun a b => a.1.compare b.1 = .lt) :
    (entries.map writeEntry).foldlM (readEntry room) ⟨before⟩ = some ⟨before ++ entries⟩ := by
  induction entries generalizing before with
  | nil =>
    rw [List.append_nil]
    rfl
  | cons entry rest ih =>
    rw [List.map_cons, writeEntry, fieldsDepth] at hdepth
    obtain ⟨_, _, hacross⟩ := List.pairwise_append.mp hs
    have hset : (MarkerMap.mk before).set entry.1 entry.2 = ⟨before ++ [entry]⟩ :=
      congrArg MarkerMap.mk
        (MarkerMap.alterIn_last _ fun e he => hacross e he entry List.mem_cons_self)
    have hentry : (writeEntry entry).2.depth ≤ room := Nat.le_trans (Nat.le_max_left ..) hdepth
    rw [List.append_cons] at hs
    rw [List.map_cons, List.foldlM_cons, readEntry_writeEntry hentry, hset,
      List.append_cons before entry rest]
    exact ih (before ++ [entry]) (by omega) hs

theorem carries_markerMap {m : MarkerMap} (hs : m.Sorted) :
    Carries markerMap (writeMarkerMap m) m where
  wellFormed := wellFormed_entries m.entries
  reads room hroom := by
    have hdepth : (writeMarkerMap m).depth = fieldsDepth (m.entries.map writeEntry) + 1 := rfl
    obtain ⟨room, rfl⟩ : ∃ k, room = k + 1 := ⟨room - 1, by omega⟩
    exact (markerMap_object room _).trans (read_entries [] m.entries (by omega) hs)

end Form

/-- The text of a marker file gives the markers back. -/
theorem MarkerFile.read?_print {m : MarkerMap} (hs : m.Sorted) :
    Json.read? Form.markerMap (print m) = some m := by
  have hcarries := Form.carries_markerMap hs
  have hdepth : (Form.writeMarkerMap m).depth ≤ Json.fullRoom := by
    have hentries := Form.fieldsDepth_entries m.entries
    have hmap : (Form.writeMarkerMap m).depth =
        Json.fieldsDepth (m.entries.map Form.writeEntry) + 1 := rfl
    unfold Json.fullRoom
    omega
  unfold print Json.read?
  rw [Json.parse?_pretty hcarries.wellFormed, Option.bind_some, hcarries.reads _ hdepth]

/-- What is read from a text is in order. -/
theorem Form.sorted_of_read {room : Nat} {j : Json} {m : MarkerMap}
    (h : markerMap room j = some m) : m.Sorted := by
  have hfields : ∀ (room : Nat) (fields : List (String × Json)) (start : MarkerMap),
      start.Sorted → fields.foldlM (readEntry room) start = some m → m.Sorted := by
    intro room fields
    induction fields with
    | nil =>
      intro start hs hm
      cases hm
      exact hs
    | cons field rest ih =>
      intro start hs hm
      rw [List.foldlM_cons] at hm
      obtain ⟨next, hnext, hrest⟩ := Option.bind_eq_some_iff.mp hm
      obtain ⟨markers, _, rfl⟩ := Option.map_eq_some_iff.mp hnext
      exact ih _ (MarkerMap.sorted_set hs _ markers) hrest
  unfold markerMap at h
  split at h
  · rename_i room fields
    exact hfields room fields .empty MarkerMap.sorted_empty ((markerMap_object room fields).symm.trans h)
  · cases h

end Recast
