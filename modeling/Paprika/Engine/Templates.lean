import Mathlib.Data.List.Basic

/-!
# Templates

`TemplateSpec` of the API with its sources, and maps of strings.  A map is its list of entries in the order of the
keys, so two maps are equal exactly when they have the same entries.
-/

namespace Paprika.Engine

/-- `map[string]string`. -/
structure StringMap where
  entries : List (String × String)
  sorted : entries.Pairwise (fun a b => a.1 < b.1)
  deriving DecidableEq

def StringMap.empty : StringMap := { entries := [], sorted := List.Pairwise.nil }

/-- The values that the API admits for a template's type. -/
inductive SourceType
  | helm | kustomize | git | s3 | oci
  deriving DecidableEq, Repr

def SourceType.text : SourceType → String
  | .helm => "helm"
  | .kustomize => "kustomize"
  | .git => "git"
  | .s3 => "s3"
  | .oci => "oci"

structure ChartRef where
  repo : String
  name : String
  version : String
  path : String
  deriving DecidableEq, Repr

structure OCISourceSpec where
  url : String
  tag : String
  insecure : Bool
  secretRef : String
  deriving DecidableEq, Repr

structure GitSourceSpec where
  repoURL : String
  revision : String
  path : String
  secretRef : String
  shallow : Option Bool
  depth : Int
  fetchAllRefs : Bool
  fetchTTL : String
  deriving DecidableEq, Repr

structure S3SourceSpec where
  bucket : String
  key : String
  region : String
  endpoint : String
  path : String
  secretRef : String
  deriving DecidableEq, Repr

structure KustomizeImage where
  name : String
  newName : String
  newTag : String
  digest : String
  deriving DecidableEq, Repr

structure KustomizeSourceSpec where
  path : String
  namePrefix : String
  nameSuffix : String
  ns : String
  images : List KustomizeImage
  commonLabels : StringMap
  commonAnnotations : StringMap
  inputFromPrevious : Bool
  deriving DecidableEq

structure TemplateSpec where
  type : SourceType
  chart : ChartRef
  git : Option GitSourceSpec
  s3 : Option S3SourceSpec
  oci : Option OCISourceSpec
  kustomize : Option KustomizeSourceSpec
  repoRef : String
  ns : String
  valuesFile : String
  deriving DecidableEq

/-- A Template as the renderers read it. -/
structure Template where
  name : String
  ns : String
  spec : TemplateSpec
  sourceHash : String
  sourceRevision : String
  deriving DecidableEq

end Paprika.Engine
