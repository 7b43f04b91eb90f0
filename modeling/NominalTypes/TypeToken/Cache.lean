import NominalTypes.TypeToken.Basic
import NominalTypes.Catalog.Construction

/-!
# The token cache

A cache keeps one token for each type that it was asked for, so that equal types get the same
token. Entries are only ever added. A new cache holds the tokens of `java.lang.Object`, of the
wrapper classes of the primitive types other than `void`, and of `java.lang.String`.
-/

namespace NominalTypes

/-- The tokens of the types that were asked for, in the order of the first requests. -/
structure TokenCache where
  entries : List (Ty × TypeToken)

namespace TokenCache

/-- The number of cached tokens. -/
def size (self : TokenCache) : Nat := self.entries.length

/-- The cached token of a type. -/
def find? (self : TokenCache) (ty : Ty) : Option TypeToken :=
  (self.entries.find? fun entry => entry.1 = ty).map Prod.snd

/-- A token of the type is cached. -/
def contains (self : TokenCache) (ty : Ty) : Bool := (self.find? ty).isSome

/-- The cache with one more token. -/
def add (self : TokenCache) (token : TypeToken) : TokenCache :=
  ⟨self.entries ++ [(token.ty, token)]⟩

/-- The token of a type, from the cache if it is there, and from the mint otherwise. -/
def get (self : TokenCache) (mint : Mint) (ty : Ty) :
    Except TypeError (TypeToken × TokenCache × Mint) :=
  match self.find? ty with
  | some token => .ok (token, self, mint)
  | none => do
      let (token, remaining) ← mint.token ty
      .ok (token, self.add token, remaining)

/-- The token of a class. -/
def getClass (self : TokenCache) (mint : Mint) (named : ClassName) :
    TypeToken × TokenCache × Mint :=
  match self.find? (.nominal named) with
  | some token => (token, self, mint)
  | none =>
      let (token, remaining) := mint.classToken named
      (token, self.add token, remaining)

/-- The token of a class applied to arguments; without arguments, of the class itself. -/
def getApplied (self : TokenCache) (mint : Mint) (catalog : Catalog) (raw : ClassName)
    (arguments : List Ty) : Except TypeError (TypeToken × TokenCache × Mint) :=
  if arguments.isEmpty then .ok (self.getClass mint raw)
  else do
    let ty ← catalog.parameterize none raw arguments
    self.get mint ty

/-- The names of the classes that a new cache has tokens for. -/
def seeds : List String :=
  "java.lang.Object" ::
    (Primitive.all.filter fun primitive => primitive ≠ .void).map Primitive.boxedName ++
    ["java.lang.String"]

/-- A new cache, with the tokens that it starts with. -/
def seeded (mint : Mint) : TokenCache × Mint :=
  seeds.foldl
    (fun (cache, supply) name => (cache.getClass supply (.plain name)).2)
    (⟨[]⟩, mint)

end TokenCache

end NominalTypes
