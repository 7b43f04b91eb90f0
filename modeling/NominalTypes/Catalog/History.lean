import NominalTypes.Catalog.Loading

/-!
# The catalogs that loading leads to

A catalog is loaded when it is reached from the empty one by adding documents. Documents that are
refused leave a catalog as it is, so that they make no difference: what any sequence of JSON texts
leads to is loaded.
-/

namespace NominalTypes

/-- The catalog is reached from the empty one by adding documents. -/
inductive Catalog.IsLoaded : Catalog → Prop where
  | empty : IsLoaded .empty
  | extend {catalog extended : Catalog} {document : Document} (loaded : IsLoaded catalog)
      (accepted : catalog.extend document = .ok extended) : IsLoaded extended

/-- A text that is accepted leads from a loaded catalog to a loaded one. -/
theorem Catalog.IsLoaded.extendFromText {catalog extended : Catalog} {text : String}
    (loaded : catalog.IsLoaded) (accepted : catalog.extendFromText text = .ok extended) :
    extended.IsLoaded := by
  unfold Catalog.extendFromText at accepted
  split at accepted
  · exact .extend loaded accepted
  · cases accepted

namespace Catalog

/-- The catalog after a JSON text is offered to it; a text that is refused changes nothing. -/
def offer (self : Catalog) (text : String) : Catalog :=
  match self.extendFromText text with
  | .ok extended => extended
  | .error _ => self

/-- The catalog after JSON texts are offered to the empty one, one after the other. -/
def afterTexts (texts : List String) : Catalog := texts.foldl offer empty

theorem IsLoaded.offer {catalog : Catalog} (loaded : catalog.IsLoaded) (text : String) :
    (catalog.offer text).IsLoaded := by
  unfold Catalog.offer
  split
  · next accepted => exact loaded.extendFromText accepted
  · exact loaded

/-- Whatever texts are offered, the catalog afterwards is a loaded one. -/
theorem isLoaded_afterTexts (texts : List String) : (afterTexts texts).IsLoaded := by
  have run : ∀ catalog : Catalog, catalog.IsLoaded →
      (texts.foldl Catalog.offer catalog).IsLoaded := by
    induction texts with
    | nil => exact fun _ loaded => loaded
    | cons text _ ih => exact fun catalog loaded => ih _ (loaded.offer text)
  exact run empty .empty

end Catalog

end NominalTypes
