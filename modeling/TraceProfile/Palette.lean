/-!
# Colors and counter categories

The closed sets of names that counters and categories choose from. A name outside its set
denotes nothing.
-/

namespace TraceProfile

/-- The colors of graphs. -/
inductive GraphColor where
  | blue | green | grey | ink | magenta | orange | purple | red | teal | yellow
  deriving DecidableEq, Repr

/-- The name of a graph color. -/
def GraphColor.name : GraphColor → String
  | blue => "blue"
  | green => "green"
  | grey => "grey"
  | ink => "ink"
  | magenta => "magenta"
  | orange => "orange"
  | purple => "purple"
  | red => "red"
  | teal => "teal"
  | yellow => "yellow"

/-- All graph colors. -/
def GraphColor.all : List GraphColor :=
  [blue, green, grey, ink, magenta, orange, purple, red, teal, yellow]

/-- The graph color of a name. -/
def GraphColor.ofName? (name : String) : Option GraphColor :=
  all.find? (·.name == name)

/-- The colors of categories. -/
inductive CategoryColor where
  | transparent | blue | green | grey | orange | purple | red | yellow
  deriving DecidableEq, Repr

/-- The name of a category color. -/
def CategoryColor.name : CategoryColor → String
  | transparent => "transparent"
  | blue => "blue"
  | green => "green"
  | grey => "grey"
  | orange => "orange"
  | purple => "purple"
  | red => "red"
  | yellow => "yellow"

/-- All category colors. -/
def CategoryColor.all : List CategoryColor :=
  [transparent, blue, green, grey, orange, purple, red, yellow]

/-- The category color of a name. -/
def CategoryColor.ofName? (name : String) : Option CategoryColor :=
  all.find? (·.name == name)

/-- What a counter counts. -/
inductive CounterCategory where
  | memory | bandwidth | cpu | custom
  deriving DecidableEq, Repr

/-- The name of a counter category. -/
def CounterCategory.name : CounterCategory → String
  | memory => "Memory"
  | bandwidth => "Bandwidth"
  | cpu => "CPU"
  | custom => "Custom"

/-- All counter categories. -/
def CounterCategory.all : List CounterCategory := [memory, bandwidth, cpu, custom]

/-- The counter category of a name. -/
def CounterCategory.ofName? (name : String) : Option CounterCategory :=
  all.find? (·.name == name)

/-- The name of a counter category denotes it and no other name does. -/
theorem CounterCategory.ofName?_eq_some_iff {name : String} {category : CounterCategory} :
    ofName? name = some category ↔ category.name = name := by
  constructor
  · intro h
    simpa using List.find?_some h
  · rintro rfl
    cases category <;> decide

/-- The name of a graph color denotes it and no other name does. -/
theorem GraphColor.ofName?_eq_some_iff {name : String} {color : GraphColor} :
    ofName? name = some color ↔ color.name = name := by
  constructor
  · intro h
    simpa using List.find?_some h
  · rintro rfl
    cases color <;> decide

/-- What is found under a name is the color that has it, if there is one. -/
theorem GraphColor.eq_ofName?_iff {name : String} {found : Option GraphColor} :
    found = ofName? name ↔ ∀ color, found = some color ↔ color.name = name := by
  constructor
  · rintro rfl color
    exact ofName?_eq_some_iff
  · intro hfound
    exact Option.ext fun color => (hfound color).trans ofName?_eq_some_iff.symm

end TraceProfile
