import ExpiringStore.Launch.Options

/-!
# What the program says about itself

The help text, the version, and the banner of a server that has started.
-/

namespace ExpiringStore

/-- The program's version. -/
def version : String := "0.1.0"

/-- The line that names the version. -/
def versionText : String := "RQLDB version " ++ version ++ "\n"

/-- How the program is used. -/
def helpText : String := "
RQLDB - An In-Memory Key-Value Database with a Statement Language

USAGE:
    rqldb [OPTIONS]

OPTIONS:
    -h, --host <HOST>          Host to bind to (default: 127.0.0.1)
    -p, --port <PORT>          Port to listen on (default: 5678)
    -u, --user <USER>          Admin username (env: RQLDB_USER, default: admin)
        --password <PASS>      Admin password (env: RQLDB_PASSWORD, required)
        --default-ttl <MS>     Expire keys set without a TTL after MS milliseconds
    -v, --version              Print version information
        --help                 Print this help message

EXAMPLES:
    rqldb --password s3cret                  # Start on 127.0.0.1:5678
    RQLDB_PASSWORD=s3cret rqldb -p 5679      # Start on port 5679

CONNECTING:
    Send one request per line; each statement ends with ';':
    $ nc 127.0.0.1 5678
    AUTH admin s3cret;
    Successfully authenticated
    SET name \"widget\" 60000; GET name other;
    Success
    [\"widget\", (nil)]

"

/-- What a server says when it has started. -/
def Options.banner (o : Options) : String :=
  "\nRQLDB v" ++ version ++ " - In-Memory Key-Value Database\n" ++
  String.ofList (List.replicate 62 '─') ++
  "\nServer started on " ++ o.address ++
  "\nReady to accept connections.\n\nUse Ctrl+C to shutdown gracefully.\n\n"

end ExpiringStore
