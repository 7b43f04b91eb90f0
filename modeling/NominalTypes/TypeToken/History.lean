import NominalTypes.TypeToken.Cache

/-!
# Runs of requests to a token cache

What becomes of a cache under a sequence of requests for the tokens of types and classes. A request
that fails is answered without a token and changes nothing.
-/

namespace NominalTypes

/-- A request for the token of a type or of a class. -/
inductive TokenRequest where
  | type (ty : Ty)
  | ofClass (named : ClassName)

/-- The type whose token is requested. -/
def TokenRequest.ty : TokenRequest → Ty
  | .type ty => ty
  | .ofClass named => .nominal named

namespace TokenCache

/-- The answer to a request with the cache and the mint behind it. -/
def answer (self : TokenCache) (mint : Mint) : TokenRequest →
    Except TypeError TypeToken × TokenCache × Mint
  | .type ty =>
      match self.get mint ty with
      | .ok (token, cache, supply) => (.ok token, cache, supply)
      | .error cause => (.error cause, self, mint)
  | .ofClass named =>
      let (token, cache, supply) := self.getClass mint named
      (.ok token, cache, supply)

/-- The answers to the requests in order, with the cache and the mint behind them. -/
def answers (self : TokenCache) (mint : Mint) : List TokenRequest →
    List (Except TypeError TypeToken) × TokenCache × Mint
  | [] => ([], self, mint)
  | request :: requests =>
      let (first, cache, supply) := self.answer mint request
      let (others, last, remaining) := cache.answers supply requests
      (first :: others, last, remaining)

/-- The answers to the requests that a new cache gets, in order. -/
def replies (mint : Mint) (requests : List TokenRequest) : List (Except TypeError TypeToken) :=
  ((seeded mint).1.answers (seeded mint).2 requests).1

/-- The cache and the mint that these requests lead to. -/
def reached (mint : Mint) (requests : List TokenRequest) : TokenCache × Mint :=
  ((seeded mint).1.answers (seeded mint).2 requests).2

/-- The types of which a new cache has given out tokens, each with its token: those that the cache
starts with, and those of the requests that succeeded. -/
def granted (mint : Mint) (requests : List TokenRequest) : List (Ty × TypeToken) :=
  (seeded mint).1.entries ++
    (requests.zip (replies mint requests)).filterMap fun (request, reply) =>
      reply.toOption.map fun token => (request.ty, token)

/-- The answer that a new cache gives to a request after the earlier ones. -/
def replyAfter (mint : Mint) (earlier : List TokenRequest) (request : TokenRequest) :
    Except TypeError TypeToken :=
  ((reached mint earlier).1.answer (reached mint earlier).2 request).1

end TokenCache

end NominalTypes
