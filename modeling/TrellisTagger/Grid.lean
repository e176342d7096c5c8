import TrellisTagger.Grid.Value
import TrellisTagger.Tagger

/-!
# Grids of configurations

A grid names some settings of a tagger and lists values to try for each. Its points are all choices
of one value per setting, the last setting varying fastest; settings that it does not name keep
their standard values.

## Main definitions

* `TrellisTagger.Setting` — the settings that a grid can name.
* `TrellisTagger.Point` — a value for every setting.
* `TrellisTagger.combinations` — all choices of one element from each of some lists.
* `TrellisTagger.Grid.points` — the points of a grid, unless it names what is no setting.
* `TrellisTagger.Point.tagger` — the untrained tagger of a point.
* `TrellisTagger.PointError` — the reasons for which a point has none.

## Main results

* `TrellisTagger.length_combinations` — there are as many choices as the product of the lengths.
-/

namespace TrellisTagger

universe u

/-- The settings of a tagger. -/
inductive Setting where
  /-- The name of the scorer. -/
  | scorer
  /-- The name of the decoder. -/
  | decoder
  /-- Whether tag trigrams that are not attested are avoided. -/
  | restrict
  /-- The interpolation weight of trigrams. -/
  | trigramWeight
  /-- The interpolation weight of bigrams. -/
  | bigramWeight
  /-- Whether the interpolation weights are estimated. -/
  | estimate
  deriving DecidableEq

namespace Setting

/-- All settings, in the order in which they are shown. -/
def all : List Setting := [scorer, decoder, restrict, trigramWeight, bigramWeight, estimate]

/-- The name of a setting. -/
def name : Setting → String
  | scorer => "scorer"
  | decoder => "decoder"
  | restrict => "restrict_trigrams"
  | trigramWeight => "lambda1"
  | bigramWeight => "lambda2"
  | estimate => "estimate_lambdas"

/-- The setting with a name. -/
def ofName? (s : String) : Option Setting := all.find? fun setting => setting.name = s

end Setting

/-- A value for every setting. -/
structure Point where
  /-- The value of each setting. -/
  value : Setting → Value

/-- The reasons for which a point has no tagger. -/
inductive PointError where
  /-- The configuration is refused. -/
  | config (e : ConfigError Value)
  /-- A weight is no number. -/
  | notNumber (v : Value)
  /-- A weight exceeds all floats. -/
  | tooLarge
  /-- The name of the decoder is a list or an object. -/
  | notName (v : Value)

/-- The wording of an error. -/
def PointError.message : PointError → String
  | config e => e.message Value.text
  | notNumber v =>
    "'<' not supported between instances of " ++ quoted v.kind ++ " and " ++
      quoted (Value.int 0).kind
  | tooLarge => Binary64.RangeError.integer.message
  | notName v => "unhashable type: " ++ quoted v.kind

namespace Point

/-- The standard value of every setting. -/
def standard : Point where
  value
    | .scorer => .ofString Config.standard.scorerName
    | .decoder => .ofString Config.standard.decoderName
    | .restrict => .bool Config.standard.restrict
    | .trigramWeight => .float Config.standard.weights.trigram
    | .bigramWeight => .float Config.standard.weights.bigram
    | .estimate => .bool Config.standard.estimate

/-- Change the value of one setting. -/
def set (p : Point) (setting : Setting) (v : Value) : Point where
  value s := if s = setting then v else p.value s

/-- The interpolation weights of a point. Where one is refused anyway, the next does not matter. Two
whole numbers are added exactly; to be added to a float, a whole number must not exceed all
floats. -/
def weights (p : Point) : Except PointError (Interpolation Float) :=
  let v := p.value .trigramWeight
  let w := p.value .bigramWeight
  match v.number?, w.number? with
  | none, _ => .error (.notNumber v)
  | some trigram, some bigram =>
    if trigram < 0 ∨ bigram < 0 ∨ v.isWhole = w.isWhole then .ok ⟨trigram, bigram⟩
    else if v.exceeds || w.exceeds then .error .tooLarge
    else .ok ⟨trigram, bigram⟩
  | some trigram, none => if trigram < 0 then .ok ⟨trigram, 0⟩ else .error (.notNumber w)

/-- The configuration of a point. Only trigram scorers look at the interpolation weights. -/
def config (p : Point) : Except PointError (Config Float) := do
  let scorerName := (p.value .scorer).text
  let weights ← if scorerName = "trigram_hmm" then p.weights else .ok Config.standard.weights
  return {
    scorerName
    decoderName := (p.value .decoder).text
    restrict := (p.value .restrict).isTrue
    weights
    estimate := (p.value .estimate).isTrue }

/-- An error of the configuration of a point. Refused weights are reported as they were given. -/
def refusal (p : Point) : ConfigError Float → PointError
  | .unknownScorer name => .config (.unknownScorer name)
  | .unknownDecoder name =>
    if (p.value .decoder).isCompound then .notName (p.value .decoder)
    else .config (.unknownDecoder name)
  | .weightsRefused _ _ =>
    .config (.weightsRefused (p.value .trigramWeight) (p.value .bigramWeight))

/-- The untrained tagger of a point. -/
def tagger (p : Point) : Except PointError (Tagger Float) := do
  let config ← p.config
  (Tagger.ofConfig config).mapError p.refusal

end Point

/-- All choices of one element from each of some lists. The choice from the last list varies
fastest. -/
def combinations {α : Type u} : List (List α) → List (List α)
  | [] => [[]]
  | l :: ls => l.flatMap fun a => (combinations ls).map (a :: ·)

/-- There are as many combinations as the product of the lengths of the lists. -/
theorem length_combinations {α : Type u} (ls : List (List α)) :
    (combinations ls).length = (ls.map List.length).foldr (· * ·) 1 := by
  induction ls with
  | nil => rfl
  | cons l ls ih =>
    rw [combinations, List.length_flatMap]
    simp only [List.length_map, List.map_const', List.sum_replicate_nat, ih, List.map_cons,
      List.foldr_cons]

/-- A name that is no setting. -/
structure UnknownSetting where
  /-- The name. -/
  name : String
  deriving DecidableEq

/-- The wording of an unknown name. -/
def UnknownSetting.message (e : UnknownSetting) : String :=
  "'" ++ e.name ++ "' is not a hyper-parameter that can be searched over."

/-- The values to try for each of some settings. -/
abbrev Grid := Table String (List Value)

namespace Grid

/-- Change the named settings of a point, one after another. -/
def assign (p : Point) : List (String × Value) → Except UnknownSetting Point
  | [] => .ok p
  | (name, v) :: rest =>
    match Setting.ofName? name with
    | some setting => assign (p.set setting v) rest
    | none => .error ⟨name⟩

/-- The points of a grid. A name that is no setting is an error as soon as there is a point to give
it to. -/
def points (g : Grid) : Except UnknownSetting (List Point) :=
  (combinations g.values).mapM fun choice => assign .standard (g.keys.zip choice)

end Grid

end TrellisTagger
