import Hyf.Rns.Announce
import Hyf.Rns.Ifac

/-!
# Destination names are unambiguous (`hyf_rns_core`)

The name of a destination is hashed as its components with dots between them. A component without a
dot can be found again in that text, so the accepted names are told apart by what is hashed of them.
-/

namespace Hyf.Rns

open ByteCodec

/-- The components of a name, the application in front. -/
def destinationComponents (appName : String) (aspects : List String) : List (List Char) :=
  (appName :: aspects).map String.toList

theorem validateDestinationName_eq_ok_iff (appName : String) (aspects : List String) :
    validateDestinationName appName aspects = .ok () ↔
      ∀ component ∈ destinationComponents appName aspects, '.' ∉ component := by
  unfold validateDestinationName containsDot destinationComponents
  rw [List.forall_mem_map, List.forall_mem_cons]
  split_ifs with happName haspects
  · simp_all
  · simp_all
  · simp_all

/-- What is hashed of a name is its text: the components with dots between them. -/
theorem destinationNameBytes_eq (appName : String) (aspects : List String) :
    destinationNameBytes appName aspects =
      utf8Bytes (['.'].intercalate (destinationComponents appName aspects)) := by
  have hdot : String.utf8EncodeChar '.' = [0x2e] := by decide
  unfold destinationNameBytes destinationComponents
  induction aspects generalizing appName with
  | nil =>
    rw [List.flatMap_nil, List.append_nil, List.map_singleton, List.intercalate_singleton, asBytes_eq]
  | cons aspect aspects ih =>
    have haspect := ih aspect
    rw [List.map_cons, List.map_cons, List.intercalate_cons_cons, List.append_assoc,
      utf8Bytes_append, List.singleton_append, utf8Bytes_cons, hdot, ← asBytes_eq]
    rw [List.map_cons] at haspect
    rw [← haspect, List.flatMap_cons, List.singleton_append]
    rfl

/-- An accepted name can be told from what is hashed of it. -/
theorem destinationNameBytes_injective {appName appName' : String} {aspects aspects' : List String}
    (h : validateDestinationName appName aspects = .ok ())
    (h' : validateDestinationName appName' aspects' = .ok ())
    (hbytes : destinationNameBytes appName aspects = destinationNameBytes appName' aspects') :
    appName = appName' ∧ aspects = aspects' := by
  rw [validateDestinationName_eq_ok_iff] at h h'
  rw [destinationNameBytes_eq, destinationNameBytes_eq] at hbytes
  have htext := utf8Bytes_injective hbytes
  -- splitting the text at its dots gives the components back
  have hsplit := congrArg (List.splitOn '.') htext
  rw [List.splitOn_intercalate '.' h (List.cons_ne_nil _ _),
    List.splitOn_intercalate '.' h' (List.cons_ne_nil _ _)] at hsplit
  exact List.cons.inj (List.map_injective_iff.mpr (fun _ _ => String.toList_injective) hsplit)

/-- An accepted name is hashed, and the first ten bytes of the hash are its name hash. -/
theorem destinationNameHash_eq (crypto : Primitives) {appName : String} {aspects : List String}
    (h : validateDestinationName appName aspects = .ok ()) :
    (destinationNameHash crypto appName aspects).map List.Vector.toList =
      .ok ((crypto.sha256 (destinationNameBytes appName aspects)).toList.take 10) := by
  rw [destinationNameHash, h]
  rfl

/-- A dot in any component is refused, before anything is hashed. -/
theorem destinationNameHash_eq_error (crypto : Primitives) {appName : String} {aspects : List String}
    (h : ∃ component ∈ appName :: aspects, '.' ∈ component.toList) :
    ∃ error, validateDestinationName appName aspects = .error error ∧
      destinationNameHash crypto appName aspects = .error error := by
  obtain ⟨component, hmem, hdot⟩ := h
  cases hvalidate : validateDestinationName appName aspects with
  | error error =>
    refine ⟨error, rfl, ?_⟩
    rw [destinationNameHash, hvalidate]
    rfl
  | ok _ =>
    have hnone := (validateDestinationName_eq_ok_iff appName aspects).mp hvalidate
    exact absurd hdot (hnone _ (List.mem_map_of_mem hmem))

/-- **Destination names are unambiguous.** The name hash of an accepted name is the hash of bytes that
no other accepted name has, however many aspects it has and whichever of its components are empty; a
name with a dot in a component is refused. -/
theorem destinationNames_unambiguous :
    (∀ appName aspects appName' aspects', validateDestinationName appName aspects = .ok () →
      validateDestinationName appName' aspects' = .ok () →
      (destinationNameBytes appName aspects = destinationNameBytes appName' aspects' ↔
        appName = appName' ∧ aspects = aspects')) ∧
    (∀ (crypto : Primitives) appName aspects, validateDestinationName appName aspects = .ok () →
      (destinationNameHash crypto appName aspects).map List.Vector.toList =
        .ok ((crypto.sha256 (destinationNameBytes appName aspects)).toList.take 10)) ∧
    ∀ (crypto : Primitives) appName aspects,
      (∃ component ∈ appName :: aspects, '.' ∈ component.toList) →
      ∃ error, validateDestinationName appName aspects = .error error ∧
        destinationNameHash crypto appName aspects = .error error := by
  refine ⟨fun appName aspects appName' aspects' h h' => ⟨destinationNameBytes_injective h h', ?_⟩,
    fun crypto _ _ => destinationNameHash_eq crypto, fun crypto _ _ => destinationNameHash_eq_error crypto⟩
  rintro ⟨rfl, rfl⟩
  rfl

/-- No aspects and one empty aspect are two names, and a dot does not join aspects. -/
theorem destinationNames_unambiguous_sample :
    destinationNameBytes "app" [] ≠ destinationNameBytes "app" [""] ∧
    (destinationNameHash samplePrimitives "app" [""]).map List.Vector.toList =
      .ok ((samplePrimitives.sha256 (destinationNameBytes "app" [""])).toList.take 10) ∧
    ∃ error, validateDestinationName "app" ["a.b"] = .error error ∧
      destinationNameHash samplePrimitives "app" ["a.b"] = .error error := by
  obtain ⟨hinjective, hhash, hdot⟩ := destinationNames_unambiguous
  refine ⟨fun hbytes => ?_, hhash samplePrimitives "app" [""] rfl,
    hdot samplePrimitives "app" ["a.b"] ⟨"a.b", by decide, by decide⟩⟩
  have hsame := (hinjective "app" [] "app" [""] rfl rfl).mp hbytes
  exact absurd hsame.2 (by decide)

end Hyf.Rns
