/-!
Settings of templates and of a template store.
-/
namespace HtmlTemplates

/-- How much memory templates may take. -/
structure MemorySettings where
  /-- The least capacity an output buffer starts with; it is never less than the total length
  of a template's literals. -/
  preallocatedOutputSize : Nat := 256
  /-- The most templates a store keeps. -/
  maxCachedTemplates : Nat := Nat.pow 2 64 - 1
  deriving DecidableEq, Repr, Inhabited

/-- The settings of a template store. -/
structure Settings where
  memory : MemorySettings := {}
  /-- Whether binding needs exactly as many values as a template has slots. Lenient binding
  fills missing values with null and ignores extra ones. -/
  strict : Bool := true
  deriving DecidableEq, Repr, Inhabited

end HtmlTemplates
