import Mathlib.Data.Prod.Lex
import Mathlib.Data.String.Basic
import Eis.Context.Models
import Eis.Foundation.Ranking
import Eis.Foundation.Text

/-!
# Retrieval

The query normalizer, the keyword retriever over a store in memory, the scorer
that ranks the items, and the removal of repeated content.
-/

set_option autoImplicit false

namespace Eis.Context

/-- What the built-in types do beyond ASCII and for objects: `str.casefold`, the `\w`
of a pattern, and `==`. -/
structure Builtins where
  casefold : String → String
  isWord : Char → Bool
  equal : Value → Value → Bool

/-! ## Queries -/

def stopwords : List String :=
  ["a", "an", "and", "are", "as", "at", "be", "by", "for", "from", "in", "is", "it", "of", "on",
    "or", "that", "the", "this", "to", "was", "were", "with"]

namespace QueryNormalizer

/-- `re.sub(r"\s+", " ", text)` -/
def collapse (text : String) : String :=
  String.ofList (Text.sub (Text.many1 Text.isSpace) [' '] 0 text.toList)

/-- `re.findall(r"[\w-]+", text)` -/
def words (builtins : Builtins) (text : String) : List String :=
  ((text.toList.splitOnP fun c => !(builtins.isWord c || c = '-')).filter fun word =>
    !word.isEmpty).map String.ofList

def normalize (builtins : Builtins) (query : String) : Query :=
  let raw := Text.strip query
  let normalized := collapse (builtins.casefold raw)
  { raw := raw
    normalized := normalized
    terms := ((words builtins normalized).filter fun term =>
      decide (term ∉ stopwords)).eraseDups }

end QueryNormalizer

/-! ## Retrievers -/

abbrev Retriever := Query → ℤ → Dict → List ContextItem

namespace KeywordRetriever

def score (builtins : Builtins) (query : Query) (item : ContextItem) : ℚ :=
  if query.terms = [] then 0
  else
    (query.terms.countP fun term => Text.includes (builtins.casefold item.content) term) /
      query.terms.length

def withScore (item : ContextItem) (relevance : ℚ) : ContextItem :=
  { item with
    relevance := relevance
    score := relevance * (55 / 100) + item.provenance.authority * (30 / 100) +
      item.freshness * (15 / 100) }

/-- `(item.score, item.provenance.authority, str(item.id))` -/
def rank (item : ContextItem) : ℚ ×ₗ ℚ ×ₗ String :=
  toLex (item.score, toLex (item.provenance.authority, item.id.str))

def scored (builtins : Builtins) (query : Query) (item : ContextItem) : ContextItem :=
  withScore item (score builtins query item)

def retrieve (builtins : Builtins) (query : Query) (items : List ContextItem) (limit : ℤ) :
    List ContextItem :=
  if limit < 1 then []
  else Ranking.largest rank limit.toNat (items.map (scored builtins query))

end KeywordRetriever

structure InMemoryRetriever where
  items : List ContextItem := []

namespace InMemoryRetriever

def add (retriever : InMemoryRetriever) (item : ContextItem) : InMemoryRetriever where
  items := retriever.items ++ [item]

/-- `item.metadata.get(key, item.provenance.metadata.get(key))` -/
def metadataAt (item : ContextItem) (name : String) : Value :=
  (item.metadata.get? name).getD ((item.provenance.metadata.get? name).getD .none)

def filter (builtins : Builtins) (items : List ContextItem) (metadata : Dict) :
    List ContextItem :=
  items.filter fun item =>
    metadata.rows.all fun entry => builtins.equal (metadataAt item entry.1) entry.2

def retrieve (builtins : Builtins) (retriever : InMemoryRetriever) : Retriever :=
  fun query limit metadata =>
    KeywordRetriever.retrieve builtins query (filter builtins retriever.items metadata) limit

def retrieveSemantic (builtins : Builtins) (retriever : InMemoryRetriever) : Retriever :=
  retriever.retrieve builtins

end InMemoryRetriever

/-! ## Scores -/

namespace ContextScorer

def priority : SourceKind → ℚ
  | .knowledge => 1
  | .decision => 98 / 100
  | .documentation => 92 / 100
  | .repository => 88 / 100
  | .project => 82 / 100
  | .task => 68 / 100
  | .memory => 55 / 100

def score (item : ContextItem) : ℚ :=
  item.relevance * (55 / 100) + item.provenance.authority * (25 / 100) +
    item.freshness * (10 / 100) + priority item.provenance.sourceKind * (10 / 100)

def rescore (item : ContextItem) : ContextItem :=
  { item with score := score item }

/-- `(-i.score, -i.provenance.authority, str(i.id))` -/
def key (item : ContextItem) : ℚ ×ₗ ℚ ×ₗ String :=
  toLex (-item.score, toLex (-item.provenance.authority, item.id.str))

def rank (items : List ContextItem) : List ContextItem :=
  Ranking.sorted key (items.map rescore)

end ContextScorer

/-! ## Repeated content -/

/-- `item.content.strip().casefold()` -/
def contentKey (builtins : Builtins) (item : ContextItem) : String :=
  builtins.casefold (Text.strip item.content)

/-- `(item.provenance.authority, item.score)` -/
def standing (item : ContextItem) : ℚ ×ₗ ℚ :=
  toLex (item.provenance.authority, item.score)

def deduplicate (builtins : Builtins) (items : List ContextItem) : List ContextItem :=
  Ranking.winners standing (contentKey builtins) items

end Eis.Context
