import Bindery.Proofs.Json.Records
import Bindery.Proofs.Text.Bytes
import Bindery.Slack.Client

/-!
# Slack objects survive being sent

An object that is left out of a text is empty, and no field of an object is written under the name
of another. So each object is read again from the text that is sent for it, and so are lists of
objects and whatever else a type of the catalog stands for.
-/
namespace Bindery

open Json (Schema)

/-! Arguments that hold documents -/

theorem Held.sent_list {α : Type} (doc : α → Json) (xs : List α) :
    (Held.list (xs.map fun x => .ok (doc x))).sent = .ok (Json.array (xs.map doc)).text := by
  have hitems : (xs.map fun x => (.ok (doc x) : Encodable)).mapM id = .ok (xs.map doc) := by
    rw [mapM_eq_ok_iff, List.forall₂_map_left_iff, List.forall₂_map_right_iff]
    exact List.forall₂_same.2 fun _ _ => rfl
  rw [sent, hitems]
  rfl

namespace Json.Schema

variable {s : Schema}

/-- A value of a sound schema survives being written to bytes. -/
theorem parse_bytes_write (hsound : s.isSound = true) (hheight : s.height ≤ maxDepth)
    (v : Value s) : s.parse (Text.piecesOfBytes (Text.utf8 (s.write v).toList)) = .ok v := by
  rw [Text.piecesOfBytes, Text.piecesFrom_utf8]
  exact parse_write hsound hheight v

end Json.Schema

namespace Slack

/-- Each object is sound, and a list of it nests far less than a reader bears. -/
theorem objects_sound : ∀ s ∈ objects, s.isSound = true ∧ s.height < Json.maxDepth := by
  decide +kernel

theorem leaf_sound (type : String) :
    (schemaOf.leaf type).isSound = true ∧ (schemaOf.leaf type).height < Json.maxDepth := by
  rw [schemaOf.leaf]
  have hdepth : 1 < Json.maxDepth := by decide
  cases hleaf : leaf? type with
  | none => exact ⟨rfl, hdepth⟩
  | some s =>
    rw [leaf?] at hleaf
    split at hleaf
    · cases hleaf
      exact ⟨rfl, Nat.lt_of_succ_lt hdepth⟩
    · obtain ⟨name, -, hname⟩ := Option.bind_eq_some_iff.1 hleaf
      exact objects_sound s (List.mem_of_find?_eq_some hname)

/-- Whatever a type of the catalog stands for survives being sent. -/
theorem parse_write_schemaOf (type : String) (v : (schemaOf type).Value) :
    (schemaOf type).parse (Text.pieces ((schemaOf type).write v)) = .ok v := by
  have hsound : (schemaOf type).isSound = true ∧ (schemaOf type).height ≤ Json.maxDepth := by
    rw [schemaOf.eq_def]
    split
    · obtain ⟨hsound, hheight⟩ := leaf_sound _
      exact ⟨hsound, hheight⟩
    · obtain ⟨hsound, hheight⟩ := leaf_sound type
      exact ⟨hsound, hheight.le⟩
  exact Schema.parse_write hsound.1 hsound.2 v

/-- An object is sent as a text that is read as the object again, and so is a list of objects. -/
theorem objects_survive : ∀ s ∈ objects,
    (∀ v : s.Value, (Held.object (some (.ok (s.toJson v)))).sent = .ok (s.write v) ∧
      s.parse (Text.pieces (s.write v)) = .ok v ∧
      s.parse (Text.piecesOfBytes (Text.utf8 (s.write v).toList)) = .ok v) ∧
    ∀ vs : List s.Value, (Held.list (vs.map fun v => .ok (s.toJson v))).sent =
        .ok ((Schema.list s).write vs) ∧
      (Schema.list s).parse (Text.pieces ((Schema.list s).write vs)) = .ok vs ∧
      (Schema.list s).parse (Text.piecesOfBytes (Text.utf8 ((Schema.list s).write vs).toList)) =
        .ok vs := by
  intro s hs
  obtain ⟨hsound, hheight⟩ := objects_sound s hs
  refine ⟨fun v => ⟨rfl, ?_, ?_⟩, fun vs => ⟨Held.sent_list s.toJson vs, ?_, ?_⟩⟩
  · exact Schema.parse_write hsound hheight.le v
  · exact Schema.parse_bytes_write hsound hheight.le v
  · exact Schema.parse_write (s := .list s) hsound hheight vs
  · exact Schema.parse_bytes_write (s := .list s) hsound hheight vs

/-- An attachment at the end of the time that a number can tell. -/
def lastAttachment : attachment.Value :=
  ("", "", "", "", "", "é\n\"\\", ([("t", "", true, ())] : List attachmentField.Value), "",
    (some Int64.minValue : Option Int64), ())

theorem lastAttachment_survives : attachment ∈ objects ∧
    attachment.write lastAttachment = "\x7b\"text\":\"é\\n\\\"\\\\\",\"fields\":[\x7b\"title\":\"t\"," ++
      "\"value\":\"\",\"short\":true\x7d],\"ts\":-9223372036854775808\x7d" ∧
    attachment.parse (Text.pieces (attachment.write lastAttachment)) = .ok lastAttachment ∧
    (Schema.list attachment).parse (Text.pieces ((Schema.list attachment).write
      [lastAttachment, textAttachment ""])) = .ok [lastAttachment, textAttachment ""] := by
  have hmem : attachment ∈ objects := List.mem_cons_of_mem _ List.mem_cons_self
  obtain ⟨hone, hlist⟩ := objects_survive attachment hmem
  exact ⟨hmem, by decide +kernel, (hone lastAttachment).2.1,
    (hlist [lastAttachment, textAttachment ""]).2.1⟩

end Slack

end Bindery
