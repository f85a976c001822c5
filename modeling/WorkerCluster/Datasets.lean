import WorkerCluster.Json.Codec

/-!
# Datasets

Documents by dataset and key.
-/

namespace WorkerCluster

/-- Documents by dataset and key. -/
abbrev Datasets := SortedMap String (SortedMap String Json)

namespace Datasets

/-- Datasets are written as objects of objects. -/
def codec : Json.Codec Datasets := .map (.map .json)

instance : Json.Coded Datasets := ⟨Datasets.codec⟩

/-- The document under a key of a dataset. -/
def document? (d : Datasets) (dataset key : String) : Option Json :=
  (d.find? dataset).bind (·.find? key)

/-- Store a document. -/
def insertDocument (d : Datasets) (dataset key : String) (document : Json) : Datasets :=
  d.insert dataset (((d.find? dataset).getD .empty).insert key document)

/-- Remove a document, and its dataset if that was the last one. -/
def eraseDocument (d : Datasets) (dataset key : String) : Datasets :=
  match d.find? dataset with
  | none => d
  | some documents =>
    let rest := documents.erase key
    if rest.isEmpty then d.erase dataset else d.insert dataset rest

end Datasets

end WorkerCluster
