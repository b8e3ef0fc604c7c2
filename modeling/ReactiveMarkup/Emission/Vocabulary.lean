/-!
# Names of generated modules

Every name that a generated module introduces starts with two dollar signs, which the names of
scripts must not.
-/

namespace ReactiveMarkup.Vocabulary

/-- The function that queues changed names and runs the updates. -/
def update : String := "$$update"

/-- The function that runs the reactive declarations. -/
def recompute : String := "$$recompute"

/-- The object that the factory returns. -/
def lifecycle : String := "$$lifecycle"

/-- The queue of changed names. -/
def pending : String := "$$pending"

/-- Whether updates are running. -/
def dispatching : String := "$$dispatching"

/-- Whether the component is mounted. -/
def mounted : String := "$$mounted"

/-- The node that the component is mounted on. -/
def target : String := "$$target"

/-- Whether rendered nodes are adopted. -/
def hydrate : String := "$$hydrate"

/-- The changed names that a function is told of. -/
def changed : String := "$$changed"

/-- Whether the reactive declarations run for the first time. -/
def initial : String := "$$initial"

/-- The changed names taken from the queue. -/
def batch : String := "$$batch"

/-- One changed name. -/
def name : String := "$$name"

/-- The function that escapes text for markup. -/
def escape : String := "$$escape"

end ReactiveMarkup.Vocabulary
