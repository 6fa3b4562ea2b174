namespace DisplayPipeline

/-- How serious a report is. -/
inductive Level where
  | warning
  | error
deriving DecidableEq, Repr

/-- A report in words. -/
structure Report where
  level : Level
  text : String
  fields : List (String × String)
deriving DecidableEq, Repr

end DisplayPipeline
