/-
  What holds where a configuration or a command line says nothing.
-/

namespace Stencil.Defaults

/-- The configuration file. -/
def configFile : String := "scaffold.config.json"

/-- The directory of the template. -/
def templateRoot : String := "./template-out"

/-- The directory of a new project. -/
def outputRoot : String := "./new-app"

/-- The file at the root of a template that describes it.  It is never copied into a project. -/
def metadataFile : String := ".scaffo-template.json"

/-- The file at the root of a source tree that lists what is left out. -/
def ignoreFile : String := ".scaffoldignore"

/-- What stands before the name of a variable in the environment. -/
def environmentStart : String := "SCAFFO_"

/-- The number of leading bytes that are looked at to tell binary files from texts. -/
def sniffedBytes : Nat := 1024

/-- The variables that name a project, the first that is resolved counting. -/
def projectNameKeys : List String := ["name", "projectName", "PROJECT_NAME"]

/-- Folders that are left out. -/
def ignoreFolders : List String :=
  [".git", "node_modules", ".vscode", ".idea", ".vs", "dist", "build", "coverage", "logs", "bin", "obj",
    "target", "__pycache__", ".pytest_cache", "venv", ".venv", "TestResults", "tmp", "log", ".bundle",
    "storage", ".gradle", ".settings"]

/-- Files that are left out. -/
def ignoreFiles : List String :=
  ["package-lock.json", "yarn.lock", "pnpm-lock.yaml", "go.sum", "Gemfile.lock", "*.log", "*.user",
    "*.suo", "*.userprefs", "*.dll", "*.pdb", "*.exe", "*.sqlite3", "master.key", ".DS_Store",
    "Thumbs.db", ".classpath", ".project"]

/-- Files that are copied as they are. -/
def staticFiles : List String :=
  ["**/*.png", "**/*.jpg", "**/*.jpeg", "**/*.gif", "**/*.ico", "**/*.webp", "**/*.svg", "**/*.ttf",
    "**/*.otf", "**/*.woff", "**/*.woff2", "**/*.pdf", "**/*.zip", "**/*.tar", "**/*.gz", "**/*.mp3",
    "**/*.mp4"]

end Stencil.Defaults
