import GoblinPay.Text.Json
import Mathlib.Data.String.Basic

/-!
# JSON objects as maps

`serde_json::Value` keeps the members of an object in a map ordered by key.
-/

namespace GoblinPay

namespace Json

/-- `BTreeMap::insert` -/
def insertMember (key : String) (value : Json) : List (String × Json) → List (String × Json)
  | [] => [(key, value)]
  | (k, v) :: members =>
    if key < k then (key, value) :: (k, v) :: members
    else if key = k then (key, value) :: members
    else (k, v) :: insertMember key value members

/-- Members read one after the other: of two with one key, the later stands. -/
def insertAll (into members : List (String × Json)) : List (String × Json) :=
  members.foldl (fun map (key, value) => insertMember key value map) into

mutual

/-- The value a `serde_json::Value` holds for a text: its objects are ordered by key, and the last member of a key stands. -/
def toMaps : Json → Json
  | .array items => .array (toMapsItems items)
  | .object members => .object (insertAll [] (toMapsMembers members))
  | j => j

def toMapsItems : List Json → List Json
  | [] => []
  | item :: items => toMaps item :: toMapsItems items

def toMapsMembers : List (String × Json) → List (String × Json)
  | [] => []
  | (key, value) :: members => (key, toMaps value) :: toMapsMembers members

end

/-- Ordered by key. -/
def Sorted (members : List (String × Json)) : Prop := (members.map Prod.fst).Pairwise (· < ·)

mutual

/-- A value all of whose objects are maps. -/
def Maps : Json → Prop
  | .array items => MapsItems items
  | .object members => Sorted members ∧ MapsMembers members
  | _ => True

def MapsItems : List Json → Prop
  | [] => True
  | item :: items => Maps item ∧ MapsItems items

def MapsMembers : List (String × Json) → Prop
  | [] => True
  | (_, value) :: members => Maps value ∧ MapsMembers members

end

/-- A member behind an insertion is the new one, or was there. -/
theorem mem_insertMember {key : String} {value : Json} {members : List (String × Json)} {m : String × Json}
    (h : m ∈ insertMember key value members) : m = (key, value) ∨ m ∈ members := by
  induction members with
  | nil => exact Or.inl (List.mem_singleton.1 h)
  | cons member members ih =>
    rw [insertMember] at h
    split at h
    · exact List.mem_cons.1 h
    split at h
    · exact (List.mem_cons.1 h).imp_right (List.mem_cons_of_mem member)
    · rcases List.mem_cons.1 h with h | h
      · exact Or.inr (h ▸ List.mem_cons_self)
      · exact (ih h).imp_right (List.mem_cons_of_mem member)

theorem sorted_cons {member : String × Json} {members : List (String × Json)} :
    Sorted (member :: members) ↔ (∀ m ∈ members, member.1 < m.1) ∧ Sorted members := by
  rw [Sorted, List.map_cons, List.pairwise_cons, List.forall_mem_map, Sorted]

/-- Insertion keeps the members in the order of their keys, each key once. -/
theorem sorted_insertMember (key : String) (value : Json) {members : List (String × Json)} (h : Sorted members) :
    Sorted (insertMember key value members) := by
  induction members with
  | nil => exact List.pairwise_singleton _ _
  | cons member members ih =>
    obtain ⟨k, v⟩ := member
    obtain ⟨hfirst, hrest⟩ := sorted_cons.1 h
    rw [insertMember]
    split
    · rename_i hlt
      refine sorted_cons.2 ⟨fun m hm => ?_, h⟩
      rcases List.mem_cons.1 hm with rfl | hm
      · exact hlt
      · exact lt_trans hlt (hfirst m hm)
    split
    · rename_i heq
      subst heq
      exact sorted_cons.2 ⟨hfirst, hrest⟩
    · rename_i hlt hne
      have hgt : k < key := lt_of_le_of_ne (not_lt.1 hlt) (Ne.symm hne)
      refine sorted_cons.2 ⟨fun m hm => ?_, ih hrest⟩
      rcases mem_insertMember hm with heq | hm
      · rw [heq]
        exact hgt
      · exact hfirst m hm

theorem mapsMembers_iff {members : List (String × Json)} : MapsMembers members ↔ ∀ m ∈ members, Maps m.2 := by
  induction members with
  | nil => exact ⟨fun _ => nofun, fun _ => trivial⟩
  | cons member members ih => rw [MapsMembers, ih, List.forall_mem_cons]

theorem maps_insertAll {into members : List (String × Json)} (hsorted : Sorted into) (hinto : MapsMembers into)
    (h : MapsMembers members) : Sorted (insertAll into members) ∧ MapsMembers (insertAll into members) := by
  induction members generalizing into with
  | nil => exact ⟨hsorted, hinto⟩
  | cons member members ih =>
    rw [MapsMembers] at h
    refine ih (sorted_insertMember member.1 member.2 hsorted) (mapsMembers_iff.2 fun m hm => ?_) h.2
    rcases mem_insertMember hm with heq | hm
    · rw [heq]
      exact h.1
    · exact mapsMembers_iff.1 hinto m hm

mutual

/-- Whatever the text gave, every object in it has become a map. -/
theorem maps_toMaps : ∀ j, Maps (toMaps j)
  | .null | .bool _ | .number _ | .string _ => trivial
  | .array items => by
    rw [toMaps, Maps]
    exact maps_toMapsItems items
  | .object members => by
    rw [toMaps, Maps]
    exact maps_insertAll List.Pairwise.nil trivial (maps_toMapsMembers members)

theorem maps_toMapsItems : ∀ items, MapsItems (toMapsItems items)
  | [] => trivial
  | item :: items => ⟨maps_toMaps item, maps_toMapsItems items⟩

theorem maps_toMapsMembers : ∀ members, MapsMembers (toMapsMembers members)
  | [] => trivial
  | (_, value) :: members => ⟨maps_toMaps value, maps_toMapsMembers members⟩

end

/-- A key behind all others is inserted at the end. -/
theorem insertMember_last {key : String} (value : Json) {members : List (String × Json)} (h : ∀ m ∈ members, m.1 < key) :
    insertMember key value members = members ++ [(key, value)] := by
  induction members with
  | nil => rfl
  | cons member members ih =>
    have hlt := h member List.mem_cons_self
    rw [insertMember, if_neg (lt_asymm hlt), if_neg (ne_of_gt hlt), ih fun m hm => h m (List.mem_cons_of_mem member hm)]
    rfl

/-- Sorted members are inserted as they stand. -/
theorem insertAll_sorted {into members : List (String × Json)} (h : Sorted (into ++ members)) :
    insertAll into members = into ++ members := by
  induction members generalizing into with
  | nil => rw [List.append_nil]; rfl
  | cons member members ih =>
    have hbefore : ∀ m ∈ into, m.1 < member.1 := by
      intro m hm
      rw [Sorted, List.map_append, List.pairwise_append] at h
      exact h.2.2 m.1 (List.mem_map_of_mem hm) member.1 List.mem_cons_self
    have moved : into ++ member :: members = (into ++ [member]) ++ members := by simp
    rw [moved] at h ⊢
    rw [← ih h, ← insertMember_last member.2 hbefore]
    rfl

mutual

/-- A value whose objects are maps is left as it is. -/
theorem toMaps_of_maps : ∀ {j}, Maps j → toMaps j = j
  | .null, _ | .bool _, _ | .number _, _ | .string _, _ => rfl
  | .array items, h => by
    rw [toMaps, toMapsItems_of_maps h]
  | .object members, h => by
    have all : insertAll [] members = [] ++ members := insertAll_sorted h.1
    rw [toMaps, toMapsMembers_of_maps h.2, all, List.nil_append]

theorem toMapsItems_of_maps : ∀ {items}, MapsItems items → toMapsItems items = items
  | [], _ => rfl
  | item :: items, h => by rw [toMapsItems, toMaps_of_maps h.1, toMapsItems_of_maps h.2]

theorem toMapsMembers_of_maps : ∀ {members}, MapsMembers members → toMapsMembers members = members
  | [], _ => rfl
  | (key, value) :: members, h => by rw [toMapsMembers, toMaps_of_maps h.1, toMapsMembers_of_maps h.2]

end

end Json

/-- `serde_json::Value` without floats. -/
structure JsonValue where
  json : Json
  maps : json.Maps

namespace JsonValue

/-- The value that parsing a text gives. -/
def ofJson (j : Json) : JsonValue := ⟨j.toMaps, Json.maps_toMaps j⟩

def isNull (v : JsonValue) : Bool :=
  match v.json with
  | .null => true
  | _ => false

/-- What is written of a value is the value again. -/
theorem ofJson_json (v : JsonValue) : ofJson v.json = v := by
  obtain ⟨json, maps⟩ := v
  rw [ofJson]
  congr
  exact Json.toMaps_of_maps maps

end JsonValue

end GoblinPay
