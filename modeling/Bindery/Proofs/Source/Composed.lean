import Bindery.Proofs.Source.Values

/-!
# Composed types are read again

The types that emitted code is written with: names, what the runtime provides, references, and names
with types or lifetimes as their arguments. Each is read again one level above its parts.
-/
namespace Bindery.Source

open Bindery.Source.Parser Bindery.Source.Grammar

variable {g : Rules} {t : Ty} {p : Path} {name : Ident} {rest : List Token}

/-- No mark for further arguments stands in front of the type. -/
theorem PlainRereads.not_dots (h : PlainRereads g t) (rest : List Token) :
    opAhead "..." (t.tokens ++ rest) = false :=
  opAhead_of_startsType (startsType_tokens h.plain rest) "..." (by simp)

/-! Names -/

theorem plain_names (h : IsNames p) : PlainRereads g.above (pathType p) :=
  plainRereads_of_path h.plain fun rest hend => h.reads_path false
    (endsSegment_of_endsType hend) (opAhead_of_endsType hend "::" (by simp))

theorem plain_word {w : String} (h : Ident.isKeyword (plain w) = false) :
    PlainRereads g.above (wordType w) := plain_names (isNames_word h)

theorem plain_self : PlainRereads g.above (wordType "Self") :=
  plain_names (.of false (plain "Self") [] (by decide) (by decide))

theorem plain_unit : PlainRereads g.above (.tupleType .nil false) := by
  have hnone : ∀ t ∈ ([] : List Ty), TypeRereads g t := fun _ h => absurd h List.not_mem_nil
  exact ⟨rfl, fun plus rest _ => type_tuple plus false hnone (by simp) (.inr (by simp)) (by simp) rest⟩

/-! Arguments -/

theorem lifetimesFirst_types (args : List Ty) :
    lifetimesFirst (lifetimesAmong (.ofList (args.map Tree.typeArg))) = true := by
  rw [lifetimesAmong_ofList, List.map_map]
  cases args with
  | nil => rfl
  | cons t rest =>
    change (List.map _ rest).all (!·) = true
    rw [List.all_map, List.all_eq_true]
    exact fun _ _ => rfl

/-- A segment with arguments that is read again. -/
structure NamedRereads (g : Rules) (s : Tree (.one .segment)) : Prop where
  plain : s.isPlain = true
  reads : SegmentRereads g false s

theorem namedRereads_bare (h : isSegmentName name = true) : NamedRereads g (segmentOf name) :=
  ⟨h, fun _ hrest => reads_bareSegment false h hrest⟩

theorem namedRereads_args (hname : Ident.isKeyword name = false)
    {args : List (Tree (.one .genericArg))} (h : ∀ a ∈ args, ArgRereads g a)
    (hplain : ∀ a ∈ args, a.isPlain = true)
    (hlife : lifetimesFirst (lifetimesAmong (.ofList args)) = true) :
    NamedRereads g (.segment name (.angleArgs false (.ofList args) false)) := by
  exact ⟨Tree.isPlain_angleArgs.2 ⟨Tree.isPlain_ofList.2 hplain, .inr hname, rfl, hlife, .inl rfl⟩,
    segmentRereads_args (.inr hname) h hlife Bool.noConfusion⟩

theorem namedRereads_types {w : String} (hw : Ident.isKeyword (plain w) = false) {args : List Ty}
    (h : ∀ t ∈ args, PlainRereads g t) : NamedRereads g (segmentWith (plain w) args) := by
  refine namedRereads_args hw (fun a ha => ?_) (fun a ha => ?_) (lifetimesFirst_types args)
  · obtain ⟨t, ht, rfl⟩ := List.mem_map.1 ha
    exact argRereads_type (h t ht)
  · obtain ⟨t, ht, rfl⟩ := List.mem_map.1 ha
    exact (h t ht).plain

/-- A path of segments that are read again, the first of which is a name. -/
theorem plain_segments {segments : List (Tree (.one .segment))}
    (h : ∀ s ∈ segments, NamedRereads g s) (hopens : opensType (.ofList segments) = true) :
    PlainRereads g.above (pathType (.path false (.ofList segments))) := by
  match segments, hopens with
  | first :: others, hopens =>
    refine plainRereads_of_path ?_ fun rest hend => reads_path false false
      (fun s hs => (h s hs).reads) (endsSegment_of_endsType hend)
      (opAhead_of_endsType hend "::" (by simp))
    have hplain : Tree.isPlain (.ofList (first :: others)) = true :=
      Tree.isPlain_ofList.2 fun s hs => (h s hs).plain
    change (Tree.isPlain (.ofList (first :: others)) &&
      opensType (.ofList (first :: others))) = true
    rw [hplain, hopens]
    rfl

theorem plain_generic {w : String} (hw : Ident.isKeyword (plain w) = false) {args : List Ty}
    (h : ∀ t ∈ args, PlainRereads g t) : PlainRereads g.above (genericType w args) := by
  have htry : (plain w != ⟨"try", false⟩) = true := by
    simpa using ne_of_not_keyword hw (w := "try") (by decide)
  exact plain_segments (by simpa using namedRereads_types hw h) htry

theorem plain_borrowing (hname : Ident.isKeyword name = false) (lifetime : Ident) :
    PlainRereads g.above (borrowingType name lifetime) := by
  have htry : (name != ⟨"try", false⟩) = true := by
    simpa using ne_of_not_keyword hname (w := "try") (by decide)
  refine plain_segments (fun s hs => ?_) htry
  obtain rfl := List.mem_singleton.1 hs
  exact namedRereads_args hname (by simpa using argRereads_lifetime lifetime)
    (fun a ha => by obtain rfl := List.mem_singleton.1 ha; rfl) rfl

/-- What can be turned into a text. -/
theorem plain_intoString : PlainRereads g.above.above intoString := by
  have hstring : PlainRereads g.above (wordType "String") := plain_word (by decide)
  refine ⟨rfl, typeRereads_of_form (.some rfl (.of false fun s hs => ?_))⟩
  obtain rfl := List.mem_singleton.1 hs
  exact .named (.inr (by decide)) rfl Bool.noConfusion fun a ha =>
    List.mem_singleton.1 ha ▸ .type hstring

end Bindery.Source
